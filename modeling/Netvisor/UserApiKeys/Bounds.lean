/-
The rights of users and those of their API keys, while keys are created,
updated and used and admins change the users.

A key gets no rights its user does not have when it is created or updated. But
a request is let in with the rights the key was given, and when an admin takes
rights away from a user, the keys keep them.
-/
import Netvisor.Lib.Transition
import Netvisor.UserApiKeys.Handlers
import Netvisor.Users.HandlersFacts

namespace Netvisor.UserApiKeyHandlers

open Program (after wp)
open Transition
open UserHandlers (AdminAccepted Grantable written session)
open UserApiKeyService (update updateNetworkAccess createWithNetworks)

/-! ## The server -/

structure KeyServer where
  accounts : Accounts
  /-- The rows that tasks of earlier requests are still to write. -/
  tasks : List UserApiKey := []

inductive Action
  /-- A request to create a key, in a session of the user; the key that is made up has the hash. -/
  | create (userId : Uuid) (apiKey : UserApiKey) (hashed : String)
  | update (userId id : Uuid) (request : UserApiKey)
  | adminUpdate (entity : AuthenticatedEntity) (id : Uuid) (body : User)
  | authenticate (request : KeyRequest)
  /-- A task writes its row. -/
  | write (n : Nat)

/-- Users and networks, and no keys yet. -/
def start (accounts : Accounts) : KeyServer where
  accounts := { accounts with userApiKeys := {}, userApiKeyNetworkAccess := [] }

/-- Who acts through a key has no rights that the user does not have. -/
def ActsWithin (accounts : Accounts) : AuthenticatedEntity → Prop
  | .apiKey _ userId _ permissions networkIds => ∃ user ∈ accounts.users.rows, user.id = userId ∧
      permissions ≤ user.base.permissions ∧ ∀ n ∈ networkIds, n ∈ accounts.accessible user
  | _ => True

/-- No request that presents a key is let in with rights the user of the key does not have. -/
def Bounded (hash : String → String) (s : KeyServer) : Prop :=
  ∀ request entity, (authenticate hash request s.accounts).1 = .ok entity → ActsWithin s.accounts entity

/-- The networks the user of an admin's update may access afterwards. -/
def accessibleAfter (accounts : Accounts) (id : Uuid) (body : User) : List Uuid :=
  match body.base.permissions with
  | .owner | .admin => accounts.networksOf body.base.organizationId
  | .member | .viewer =>
    if Grantable accounts body.base.networkIds then body.base.networkIds else accounts.givenTo id

section Server

variable [EmailRules]

def step (hash : String → String) (s : KeyServer) : Action → Option KeyServer
  | .create userId apiKey hashed =>
    some { s with accounts := after (do createUserApiKey (← session userId) apiKey hashed) s.accounts }
  | .update userId id request =>
    some { s with accounts := after (do updateUserApiKey (← session userId) id request) s.accounts }
  | .adminUpdate entity id body =>
    some { s with accounts := after (UserHandlers.adminUpdateUser entity id body) s.accounts }
  | .authenticate request => some { s with tasks := s.tasks ++ (authenticate hash request s.accounts).2.toList }
  | .write n =>
    match s.tasks[n]? with
    | none => none
    | some apiKey => some { accounts := after (update apiKey) s.accounts, tasks := s.tasks.eraseIdx n }

/-- Every key of a user that an admin updates, and every row of one still to be written, has
no rights the user is left without. -/
def Lossless (s : KeyServer) : Action → Prop
  | .adminUpdate entity id body => ∀ existing ∈ s.accounts.users.rows, AdminAccepted s.accounts entity id existing body →
      ∀ apiKey ∈ s.accounts.userApiKeys.rows ++ s.tasks, apiKey.base.userId = id →
        apiKey.base.permissions ≤ body.base.permissions ∧
          ∀ n ∈ s.accounts.keyNetworks apiKey.id, n ∈ accessibleAfter s.accounts id body
  | _ => True

end Server

/-! ## The invariant -/

/-- The key has no rights that its user does not have. -/
def Within (accounts : Accounts) (apiKey : UserApiKey) : Prop :=
  ∃ user ∈ accounts.users.rows, user.id = apiKey.base.userId ∧ apiKey.base.permissions ≤ user.base.permissions ∧
    ∀ n ∈ accounts.keyNetworks apiKey.id, n ∈ accounts.accessible user

/-- There is a stored key with the same id and the same user. -/
def Stored (accounts : Accounts) (apiKey : UserApiKey) : Prop :=
  ∃ k ∈ accounts.userApiKeys.rows, k.id = apiKey.id ∧ k.base.userId = apiKey.base.userId

structure Inv (accounts : Accounts) (tasks : List UserApiKey) : Prop where
  keys : ∀ k ∈ accounts.userApiKeys.rows, Within accounts k
  tasks : ∀ k ∈ tasks, Stored accounts k ∧ Within accounts k
  access : ∀ r ∈ accounts.userApiKeyNetworkAccess, ∃ k ∈ accounts.userApiKeys.rows, k.id = r.1

variable {hash : String → String} {s t : KeyServer} {a b : Accounts} {k apiKey : UserApiKey}

theorem mem_keyNetworks {id n : Uuid} : n ∈ a.keyNetworks id ↔ (id, n) ∈ a.userApiKeyNetworkAccess := by
  simp [Accounts.keyNetworks]

theorem inv_start (accounts : Accounts) : Inv (start accounts).accounts (start accounts).tasks where
  keys _ hk := nomatch hk
  tasks _ hk := nomatch hk
  access _ hr := nomatch hr

/-- A request acts with the rights of the key that was found. -/
theorem authenticate_eq_ok {request : KeyRequest} {entity : AuthenticatedEntity}
    (h : (authenticate hash request a).1 = .ok entity) : ∃ k ∈ a.userApiKeys.rows, entity =
      .apiKey k.id k.base.userId k.base.organizationId k.base.permissions (a.keyNetworks k.id) := by
  simp only [authenticate] at h
  cases hresult : (extractAuth { request with apiAccess := _ }
      (a.userApiKeys.rows.find? fun k => k.base.key == hash request.key)).1 with
  | error e =>
    rw [hresult] at h
    cases h
  | ok k =>
    rw [hresult] at h
    cases h
    exact ⟨k, List.mem_of_find?_eq_some (enabled_of_extractAuth hresult).1, rfl⟩

/-- The row that is written back has the rights of the key that was found. -/
theorem authenticate_written {request : KeyRequest} {w : UserApiKey} (h : (authenticate hash request a).2 = some w) :
    ∃ k ∈ a.userApiKeys.rows, w.id = k.id ∧ w.base.userId = k.base.userId ∧
        w.base.permissions = k.base.permissions := by
  simp only [authenticate] at h
  obtain ⟨k, hfound, rfl | rfl⟩ := written_cases h
  · exact ⟨k, List.mem_of_find?_eq_some hfound, rfl, rfl, rfl⟩
  · exact ⟨k, List.mem_of_find?_eq_some hfound, rfl, rfl, rfl⟩

theorem bounded_of_inv (h : Inv s.accounts s.tasks) : Bounded hash s := by
  intro request entity hentity
  obtain ⟨k, hk, rfl⟩ := authenticate_eq_ok hentity
  exact h.keys k hk

theorem Within.congr (h : Within a k) (hid : apiKey.id = k.id) (huser : apiKey.base.userId = k.base.userId)
    (hpermissions : apiKey.base.permissions = k.base.permissions) : Within a apiKey := by
  unfold Within
  rwa [hid, huser, hpermissions]

/-- Rights are kept if the users are as before and the key has no more networks. -/
theorem Within.mono (h : Within a k) (husers : b.users = a.users) (hnetworks : b.networks = a.networks)
    (hgiven : b.userNetworkAccess = a.userNetworkAccess) (hkey : ∀ n ∈ b.keyNetworks k.id, n ∈ a.keyNetworks k.id) :
    Within b k := by
  obtain ⟨user, huser, hid, hpermissions, hall⟩ := h
  have haccessible : b.accessible user = a.accessible user := by
    simp only [Accounts.accessible, Accounts.networksOf, Accounts.givenTo, hnetworks, hgiven]
  refine ⟨user, husers ▸ huser, hid, hpermissions, fun n hn => ?_⟩
  rw [haccessible]
  exact hall n (hkey n hn)

/-! ## Writes of keys -/

/-- A row that is written has rights within its user's, and is that of a stored key. -/
theorem Inv.wp_update {tasks : List UserApiKey} (h : Inv a tasks) (hapiKey : Within a apiKey)
    (huser : ∀ x ∈ a.userApiKeys.rows, x.id = apiKey.id → x.base.userId = apiKey.base.userId) :
    wp (update apiKey) (fun _ t => Inv t tasks) (fun _ t => Inv t tasks) a := by
  unfold update
  simp only [Program.wp_bind, Program.wp_get]
  split
  · exact h
  next found hfound =>
  simp only [Program.wp_bind, wp_runStatement, Program.wp_set, Program.wp_pure]
  refine ⟨fun rows hrows => ?_, fun _ _ => h⟩
  have hmono : ∀ k, Within a k → Within { a with userApiKeys := rows } k := fun k hk =>
    hk.mono rfl rfl rfl fun _ hn => hn
  rcases updateIn_eq_ok hrows with ⟨-, rfl⟩ | ⟨-, -, rfl⟩
  · exact h
  · have hstays : ∀ x ∈ a.userApiKeys.rows,
        Stored { a with userApiKeys := a.userApiKeys.update (UserApiKeyService.row apiKey) } x := by
      intro x hx
      by_cases hid : x.id = apiKey.id
      · exact ⟨_, Table.mem_update.mpr (.inl ⟨rfl, x, hx, hid⟩), hid.symm, (huser x hx hid).symm⟩
      · exact ⟨x, Table.mem_update.mpr (.inr ⟨hx, hid⟩), rfl, rfl⟩
    refine ⟨fun x hx => ?_, fun x hx => ?_, fun r hr => ?_⟩
    · rcases Table.mem_update.mp hx with ⟨rfl, -⟩ | ⟨hx, -⟩
      · exact hmono _ (hapiKey.congr rfl rfl rfl)
      · exact hmono x (h.keys x hx)
    · obtain ⟨⟨y, hy, hid, hsame⟩, hwithin⟩ := h.tasks x hx
      obtain ⟨z, hz, hzid, hzsame⟩ := hstays y hy
      exact ⟨⟨z, hz, hzid.trans hid, hzsame.trans hsame⟩, hmono x hwithin⟩
    · obtain ⟨y, hy, hid⟩ := h.access r hr
      obtain ⟨z, hz, hzid, -⟩ := hstays y hy
      exact ⟨z, hz, hzid.trans hid⟩

/-- The networks of a key are replaced by some its user may access. -/
theorem Inv.wp_updateNetworkAccess {tasks : List UserApiKey} {networkIds : List Uuid} {user : User} (h : Inv a tasks)
    (hk : k ∈ a.userApiKeys.rows) (huser : user ∈ a.users.rows) (hown : k.base.userId = user.id)
    (hall : ∀ n ∈ networkIds, n ∈ a.accessible user) {Q : Unit → Accounts → Prop} {E : ApiError → Accounts → Prop}
    (hQ : ∀ rows, Inv { a with userApiKeyNetworkAccess := rows } tasks →
      (∀ n, (k.id, n) ∈ rows → n ∈ networkIds) → Q () { a with userApiKeyNetworkAccess := rows })
    (hE : ∀ e, E e a) : wp (updateNetworkAccess k.id networkIds) Q E a := by
  simp only [updateNetworkAccess, Program.wp_bind, Program.wp_get, wp_runStatement, Program.wp_set]
  refine ⟨fun rows hrows => ?_, fun e _ => hE e⟩
  have hmem : ∀ {r}, r ∈ rows ↔ _ := replaceAccess_eq_ok hrows
  have hwithin : ∀ x, Stored a x → Within a x → Within { a with userApiKeyNetworkAccess := rows } x := by
    rintro x ⟨y, hy, hyid, hyuser⟩ hx
    by_cases hid : x.id = k.id
    · obtain ⟨u, hu, huid, hpermissions, -⟩ := hx
      rw [a.userApiKeys.eq_of_key hy hk (hyid.trans hid)] at hyuser
      have hsame : u = user := a.users.eq_of_key hu huser (huid.trans (hyuser.symm.trans hown))
      refine ⟨u, hu, huid, hpermissions, fun n hn => ?_⟩
      rw [mem_keyNetworks, hid, hmem] at hn
      rcases hn with ⟨-, hne⟩ | ⟨-, hn⟩
      · exact absurd rfl hne
      · rw [hsame]
        exact hall n hn
    · refine hx.mono rfl rfl rfl fun n hn => ?_
      rw [mem_keyNetworks, hmem] at hn
      rcases hn with ⟨hn, -⟩ | ⟨hsame, -⟩
      · exact mem_keyNetworks.mpr hn
      · exact absurd hsame hid
  refine hQ rows ⟨fun x hx => hwithin x ⟨x, hx, rfl, rfl⟩ (h.keys x hx), fun x hx => ?_,
    fun r hr => ?_⟩ fun n hn => ?_
  · obtain ⟨hstored, hx⟩ := h.tasks x hx
    exact ⟨hstored, hwithin x hstored hx⟩
  · rcases hmem.mp hr with ⟨hr, -⟩ | ⟨hr, -⟩
    · exact h.access r hr
    · exact ⟨k, hk, hr.symm⟩
  · rcases hmem.mp hn with ⟨-, hne⟩ | ⟨-, hn⟩
    · exact absurd rfl hne
    · exact hn

/-! ## Requests about keys -/

theorem wp_requireApiKeyFeature {entity : AuthenticatedEntity} {Q : Unit → Accounts → Prop}
    {E : ApiError → Accounts → Prop}
    (hQ : Q () a) (hE : ∀ e, E e a) : wp (requireApiKeyFeature entity) Q E a := by
  simp only [requireApiKeyFeature, Program.wp_bind, Program.wp_get]
  exact wp_requireFeature (fun _ => hQ) fun e _ => hE e

theorem wp_orNew {Q : UserApiKey → Accounts → Prop} {E : ApiError → Accounts → Prop}
    (hQ : ∀ id createdAt updatedAt drawn, Q { apiKey with id, createdAt, updatedAt } { a with drawn }) :
    wp (UserApiKeyService.orNew apiKey) Q E a := by
  unfold UserApiKeyService.orNew
  simp only [Program.wp_ite, Program.wp_bind, AccountStore.wp_newV4, Program.wp_get, Program.wp_pure]
  exact ⟨fun _ => hQ _ _ _ _, fun _ => hQ apiKey.id apiKey.createdAt apiKey.updatedAt a.drawn⟩

/-- The rights a user asks for are the user's own. -/
theorem validateUpdate_user {user : User} {emailVerified : Bool} (h : ApiKeyCommon.validateUpdate apiKey
    (.user user.id user.base.organizationId user.base.permissions (a.accessible user) emailVerified) = true) :
    apiKey.base.permissions ≤ user.base.permissions ∧ ∀ n ∈ apiKey.base.networkIds, n ∈ a.accessible user := by
  simpa [ApiKeyCommon.validateUpdate, AuthenticatedEntity.permissions, AuthenticatedEntity.networkIds,
    UserApiKey.validatePermissions, UserApiKey.validateNetworkAccess] using h

/-- A new key has rights that its user has. -/
theorem Inv.wp_create {tasks : List UserApiKey} {user : User} {emailVerified : Bool} {hashed : String}
    (h : Inv a tasks)
    (huser : user ∈ a.users.rows) : wp (createUserApiKey
      (.user user.id user.base.organizationId user.base.permissions (a.accessible user) emailVerified) apiKey hashed)
      (fun _ t => Inv t tasks) (fun _ t => Inv t tasks) a := by
  simp only [createUserApiKey, AuthenticatedEntity.userId, AuthenticatedEntity.organizationId, Program.wp_bind,
    wp_authorize]
  refine ⟨fun _ => wp_requireApiKeyFeature ?_ fun _ => h, fun _ _ => h⟩
  simp only [validateRights, Program.wp_ite, Program.wp_pure, Program.wp_throw]
  refine ⟨fun hrights => ?_, fun _ => h⟩
  obtain ⟨hpermissions, hnetworks⟩ := validateUpdate_user hrights
  simp only [wp_internally, createWithNetworks, Program.wp_bind]
  refine wp_orNew fun id createdAt updatedAt drawn => ?_
  simp only [Program.wp_get, Program.wp_bind, wp_runStatement, Program.wp_set, Program.wp_ite, Program.wp_pure]
  have hdrawn : Inv { a with drawn } tasks := ⟨h.keys, h.tasks, h.access⟩
  refine ⟨fun rows hrows => ?_, fun _ _ => hdrawn⟩
  generalize hnew : UserApiKeyService.row _ = new at hrows
  obtain ⟨hinsert, -, -⟩ := insertInto_eq_ok hrows
  obtain ⟨hrows, hfresh⟩ := Table.insert_eq_some hinsert
  have hnewmem : new ∈ rows.rows := by simp [hrows]
  have hold : ∀ x ∈ a.userApiKeys.rows, x ∈ rows.rows := fun x hx => by simp [hrows, hx]
  have hnone : ∀ n, (new.id, n) ∉ a.userApiKeyNetworkAccess := by
    intro n hn
    obtain ⟨x, hx, hid⟩ := h.access _ hn
    exact hfresh x hx hid
  have hmono : ∀ k, Within a k → Within { a with drawn, userApiKeys := rows } k := fun k hk =>
    hk.mono rfl rfl rfl fun _ hn => hn
  have hinv : Inv { a with drawn, userApiKeys := rows } tasks := by
    refine ⟨fun x hx => ?_, fun x hx => ?_, fun r hr => ?_⟩
    · rw [hrows, List.mem_append, List.mem_singleton] at hx
      rcases hx with hx | rfl
      · exact hmono x (h.keys x hx)
      · refine ⟨user, huser, ?_, ?_, fun n hn => absurd (mem_keyNetworks.mp hn) (hnone n)⟩
        · rw [← hnew]
          rfl
        · rw [← hnew]
          exact hpermissions
    · obtain ⟨⟨y, hy, hsame⟩, hwithin⟩ := h.tasks x hx
      exact ⟨⟨y, hold y hy, hsame⟩, hmono x hwithin⟩
    · obtain ⟨y, hy, hid⟩ := h.access r hr
      exact ⟨y, hold y hy, hid⟩
  refine ⟨fun _ => ?_, fun _ => hinv⟩
  have hid : new.id = id := by rw [← hnew]; rfl
  have hown : new.base.userId = user.id := by rw [← hnew]; rfl
  rw [← hid]
  exact hinv.wp_updateNetworkAccess hnewmem huser hown hnetworks (fun _ hinv _ => hinv) fun _ => hinv

/-- An updated key has rights that its user has. -/
theorem Inv.wp_updateKey {tasks : List UserApiKey} {user : User} {emailVerified : Bool} {id : Uuid} (h : Inv a tasks)
    (huser : user ∈ a.users.rows) : wp (updateUserApiKey
      (.user user.id user.base.organizationId user.base.permissions (a.accessible user) emailVerified) id apiKey)
      (fun _ t => Inv t tasks) (fun _ t => Inv t tasks) a := by
  simp only [updateUserApiKey, Program.wp_bind, wp_authorize]
  refine ⟨fun _ => wp_requireApiKeyFeature ?_ fun _ => h, fun _ _ => h⟩
  simp only [Program.wp_get]
  split
  · exact h
  next existing hexisting =>
  obtain ⟨hk, rfl⟩ := Table.get_eq_some.mp hexisting
  simp only [Program.wp_ite, Program.wp_throw, validateRights, Program.wp_bind, Program.wp_pure]
  refine ⟨fun _ => h, fun haccess => ⟨fun hrights => ?_, fun _ => h⟩⟩
  obtain ⟨hpermissions, hnetworks⟩ := validateUpdate_user hrights
  have hown : existing.base.userId = user.id := by
    simp only [ApiKeyCommon.validateAccess, AuthenticatedEntity.userId, Bool.not_eq_true, Bool.not_eq_false',
      beq_iff_eq, Option.some.injEq] at haccess
    exact haccess.symm
  refine h.wp_updateNetworkAccess hk huser hown hnetworks (fun rows hinv hgiven => ?_) fun _ => h
  rw [wp_internally]
  refine hinv.wp_update ⟨user, huser, hown.symm, hpermissions, fun n hn => ?_⟩ fun x hx hid => ?_
  · exact hnetworks n (hgiven n (mem_keyNetworks.mp hn))
  · rw [a.userApiKeys.eq_of_key hx hk hid]
    rfl

/-! ## Runs -/

theorem accessible_of_accessibleAfter {id n : Uuid} {user body : User} (hn : n ∈ accessibleAfter a id body)
    (hpermissions : user.base.permissions = body.base.permissions)
    (horganization : user.base.organizationId = body.base.organizationId) (hnetworks : b.networks = a.networks)
    (hgiven : ∀ n ∈ (if Grantable a body.base.networkIds then body.base.networkIds else a.givenTo id),
      n ∈ b.givenTo user.id) : n ∈ b.accessible user := by
  have horg : b.networksOf user.base.organizationId = a.networksOf body.base.organizationId := by
    rw [Accounts.networksOf, Accounts.networksOf, hnetworks, horganization]
  unfold accessibleAfter at hn
  rw [Accounts.accessible, hpermissions, horg]
  cases hlevel : body.base.permissions with
  | owner | admin => rwa [hlevel] at hn
  | member | viewer =>
    rw [hlevel] at hn
    exact hgiven n hn

section Runs

variable [EmailRules]

/-- A session stands for a stored user. -/
theorem wp_session {userId : Uuid} {Q : AuthenticatedEntity → Accounts → Prop} {E : ApiError → Accounts → Prop}
    (hQ : ∀ user ∈ a.users.rows, ∀ emailVerified,
      Q (.user user.id user.base.organizationId user.base.permissions (a.accessible user) emailVerified) a)
    (hE : ∀ e, E e a) : wp (session userId) Q E a := by
  simp only [session, Program.wp_bind, Program.wp_mapError, UserService.wp_getById]
  refine ⟨fun _ => hE _, fun user huser => ⟨fun _ => ?_, fun _ _ => hE _⟩⟩
  exact hQ user (Table.get_eq_some.mp huser).1 _

/-- Where no rights are lost that a key has, the keys stay within them. -/
theorem Inv.wp_adminUpdate {entity : AuthenticatedEntity} {id : Uuid} {body : User} (h : Inv s.accounts s.tasks)
    (hok : Lossless s (.adminUpdate entity id body)) : wp (UserHandlers.adminUpdateUser entity id body)
      (fun _ t => Inv t s.tasks) (fun _ t => Inv t s.tasks) s.accounts := by
  refine UserHandlers.wp_adminUpdateUser (fun _ _ => h) fun existing haccepted => ?_
  obtain ⟨hexisting, rfl⟩ := Table.get_eq_some.mp haccepted.found
  have hlossless := hok existing hexisting haccepted
  -- the rows of the users and their networks after the update, with or without the new networks
  have hkeep : ∀ rows, (∀ r : Uuid × Uuid, r.1 ≠ existing.id → (r ∈ rows ↔ r ∈ s.accounts.userNetworkAccess)) →
      (∀ n ∈ accessibleAfter s.accounts existing.id body, n ∈ Accounts.accessible
        { s.accounts with users := s.accounts.users.update (written existing body), userNetworkAccess := rows }
        (written existing body)) →
      Inv { s.accounts with users := s.accounts.users.update (written existing body), userNetworkAccess := rows }
        s.tasks := by
    intro rows hothers hafter
    have hwithin : ∀ k ∈ s.accounts.userApiKeys.rows ++ s.tasks, Within s.accounts k →
        Within { s.accounts with users := s.accounts.users.update (written existing body), userNetworkAccess := rows }
          k := by
      rintro k hk ⟨user, huser, huid, hpermissions, hall⟩
      have hwritten : (written existing body).id = existing.id := haccepted.own
      by_cases hid : k.base.userId = existing.id
      · obtain ⟨hbelow, hnetworks⟩ := hlossless k hk hid
        refine ⟨written existing body,
          Table.mem_update.mpr (.inl ⟨rfl, existing, hexisting, hwritten.symm⟩), ?_, hbelow,
            fun n hn => hafter n (hnetworks n hn)⟩
        rw [hwritten, hid]
      · have hne : user.id ≠ existing.id := fun heq => hid (huid.symm.trans heq)
        have hgiven : ∀ n, n ∈ s.accounts.givenTo user.id →
            n ∈ Accounts.givenTo { s.accounts with
              users := s.accounts.users.update (written existing body), userNetworkAccess := rows } user.id := by
          intro n hn
          rw [Accounts.mem_givenTo] at hn ⊢
          exact (hothers _ hne).mpr hn
        refine ⟨user, Table.mem_update.mpr (.inr ⟨huser, hwritten ▸ hne⟩), huid, hpermissions, fun n hn => ?_⟩
        have hn := hall n hn
        unfold Accounts.accessible at hn ⊢
        split at hn
        · exact hn
        · exact hn
        · exact hgiven n hn
        · exact hgiven n hn
    refine ⟨fun k hk => hwithin k (List.mem_append_left _ hk) (h.keys k hk), fun k hk => ?_, h.access⟩
    obtain ⟨hstored, hk'⟩ := h.tasks k hk
    exact ⟨hstored, hwithin k (List.mem_append_right _ hk) hk'⟩
  refine ⟨fun user rows hrows => hkeep rows (fun r hr => ?_) fun n hn => ?_,
    fun e e' herror => hkeep s.accounts.userNetworkAccess (fun _ _ => Iff.rfl) fun n hn => ?_⟩
  · rw [replaceAccess_eq_ok hrows]
    simp [hr]
  · have hgrantable := (UserHandlers.grantable_iff haccepted.found).mpr ⟨rows, hrows⟩
    refine accessible_of_accessibleAfter hn rfl rfl rfl fun n hn => ?_
    rw [if_pos hgrantable] at hn
    rw [Accounts.mem_givenTo, replaceAccess_eq_ok hrows]
    exact .inr ⟨haccepted.own, hn⟩
  · have hnot : ¬ Grantable s.accounts body.base.networkIds := by
      intro hgrantable
      obtain ⟨rows, hrows⟩ := (UserHandlers.grantable_iff haccepted.found).mp hgrantable
      rw [hrows] at herror
      cases herror
    refine accessible_of_accessibleAfter hn rfl rfl rfl fun n hn => ?_
    rwa [if_neg hnot, ← haccepted.own] at hn

theorem inv_step {a : Action} (h : Inv s.accounts s.tasks) (hok : Lossless s a) (hstep : step hash s a = some t) :
    Inv t.accounts t.tasks := by
  cases a with
  | create userId apiKey hashed =>
    cases hstep
    refine (Program.wp_after (P := fun t => Inv t s.tasks)).mp ?_
    rw [Program.wp_bind]
    exact wp_session (fun user huser _ => h.wp_create huser) fun _ => h
  | update userId id request =>
    cases hstep
    refine (Program.wp_after (P := fun t => Inv t s.tasks)).mp ?_
    rw [Program.wp_bind]
    exact wp_session (fun user huser _ => h.wp_updateKey huser) fun _ => h
  | adminUpdate entity id body =>
    cases hstep
    exact Program.wp_after.mp (h.wp_adminUpdate hok)
  | authenticate request =>
    cases hstep
    refine ⟨h.keys, fun w hw => ?_, h.access⟩
    rcases List.mem_append.mp hw with hw | hw
    · exact h.tasks w hw
    · obtain ⟨k, hk, hid, huser, hpermissions⟩ := authenticate_written (Option.mem_toList.mp hw)
      exact ⟨⟨k, hk, hid.symm, huser.symm⟩, (h.keys k hk).congr hid huser hpermissions⟩
  | write n =>
    simp only [step] at hstep
    split at hstep
    · cases hstep
    next apiKey hn =>
    cases hstep
    obtain ⟨⟨k, hk, hid, huser⟩, hwithin⟩ := h.tasks apiKey (List.mem_of_getElem? hn)
    have hrest : Inv s.accounts (s.tasks.eraseIdx n) :=
      ⟨h.keys, fun w hw => h.tasks w (List.mem_of_mem_eraseIdx hw), h.access⟩
    refine Program.wp_after.mp (hrest.wp_update hwithin fun x hx hxid => ?_)
    rw [s.accounts.userApiKeys.eq_of_key hx hk (hxid.trans hid.symm)]
    exact huser

/-- **No API key outgrows its user** in a run in which no admin takes rights from a user that a
key of the user has. -/
theorem bounded_of_lossless (hash : String → String) (accounts : Accounts) (run : List Action)
    (h : Along (step hash) Lossless (start accounts) run) : Visits (step hash) (Bounded hash) (start accounts) run :=
  h.visits (I := fun s => Inv s.accounts s.tasks) (fun _ _ _ hinv hok hstep => inv_step hinv hok hstep)
    (fun _ hinv => bounded_of_inv hinv) (inv_start accounts)

end Runs

instance (accounts : Accounts) (entity : AuthenticatedEntity) : Decidable (ActsWithin accounts entity) := by
  unfold ActsWithin
  split <;> infer_instance

instance [EmailRules] (s : KeyServer) (a : Action) : Decidable (Lossless s a) := by
  unfold Lossless
  split <;> infer_instance

/-- An owner of an organization and a member with one of its two networks. -/
def ownerAndMember : Accounts where
  organizations := ⟨[{ id := 2, plan := some .pro }], by decide⟩
  networks := ⟨[{ id := 10, organizationId := 2 }, { id := 11, organizationId := 2 }], by decide⟩
  users := ⟨[{ id := 1, base := { email := "o@example.com", organizationId := 2, permissions := .owner } },
    { id := 5,
      base := { email := "m@example.com", organizationId := 2, permissions := .member, emailVerified := true } }],
    by decide⟩
  userNetworkAccess := [(5, 10)]
  drawn := [100]

/-- A member's key is created, used and updated, and the member is given another network. -/
theorem bounded_when_given :
    Visits (@step ⟨fun _ => none, fun email => email⟩ fun key => key) (Bounded fun key => key) (start ownerAndMember)
      [.create 5 { base := { permissions := .member, networkIds := [10], isEnabled := true } } "key",
        .authenticate { key := "key" }, .write 0,
        .update 5 100 { base := { permissions := .viewer, networkIds := [10], isEnabled := true } },
        .adminUpdate (.user 1 2 .owner [10, 11] true) 5
          { id := 5, base := { email := "", organizationId := 2, permissions := .member, networkIds := [10,
            11] } }] :=
  @bounded_of_lossless ⟨fun _ => none, fun email => email⟩ _ _ _ (by decide +kernel)

/-- A member's key still acts as a member's, on the network, when the member is made a viewer with none. -/
theorem outgrown_when_taken :
    ¬ Visits (@step ⟨fun _ => none, fun email => email⟩ fun key => key) (Bounded fun key => key)
      (start ownerAndMember)
      [.create 5 { base := { permissions := .member, networkIds := [10], isEnabled := true } } "key",
        .adminUpdate (.user 1 2 .owner [10, 11] true) 5
          { id := 5, base := { email := "", organizationId := 2, permissions := .viewer } }] := by
  intro h
  have hacts := h.2.mono (S := fun _ _ t =>
      (authenticate (fun key => key) { key := "key" } t.accounts).1.toOption.all fun e => ActsWithin t.accounts e) ?_
  · exact absurd hacts (by decide +kernel)
  · intro s a t _ ht
    rw [Option.all_eq_true]
    intro entity hentity
    have hok := ht { key := "key" } entity
    cases hresult : (authenticate (fun key => key) { key := "key" } t.accounts).1 with
    | error e =>
      rw [hresult] at hentity
      cases hentity
    | ok found =>
      rw [hresult] at hentity
      cases hentity
      exact decide_eq_true (hok hresult)

end Netvisor.UserApiKeyHandlers
