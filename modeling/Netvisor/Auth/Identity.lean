/-
Who an identity provider's subject is: when the flows of `OidcService` take a
subject for the user it is linked to.

Users are looked up by the subject alone, and a subject without an address is
given one made of its first eight bytes. So a subject may pass for that of
another provider, or for a user with the made-up address, and a subject of
fewer than eight bytes ends the request. The lookup in the database is by
`hasOidcSubject`.
-/
import Netvisor.Auth.AccountsFacts
import Netvisor.Auth.Oidc

namespace Netvisor.OidcService

open Program (wp)
open UserService (hasOidcSubject uniques references)

/-! ## Links of the stored users -/

/-- No two users are linked to one subject of one provider. -/
def PairsUnique (users : Table User User.id) : Prop :=
  ∀ u ∈ users.rows, ∀ v ∈ users.rows, ∀ slug subject, u.Linked slug subject → v.Linked slug subject → u = v

/-- What a request may do to the links of the users: change those of the allowed
ones, and give no two the same. -/
structure LinksKept (allowed : User → Prop) (before after : Table User User.id) : Prop where
  relinked : ∀ row ∈ before.rows, ∀ row' ∈ after.rows, row'.id = row.id →
    allowed row ∨ row'.base.oidcProvider = row.base.oidcProvider ∧ row'.base.oidcSubject = row.base.oidcSubject
  unique : PairsUnique before → PairsUnique after

/-- The user is a stored one, of the allowed. -/
def Stands (allowed : User → Prop) (users : Table User User.id) (user : User) : Prop :=
  ∃ row ∈ users.rows, row.id = user.id ∧ allowed row

section Links

variable {allowed : User → Prop} {users users' : Table User User.id} {user row : User} {slug subject : String}

theorem LinksKept.refl (allowed : User → Prop) (users : Table User User.id) : LinksKept allowed users users where
  relinked row hrow row' hrow' hid := by
    have hsame : row' = row := users.eq_of_key hrow' hrow hid
    exact .inr ⟨by rw [hsame], by rw [hsame]⟩
  unique h := h

/-- A user with a link is found by its subject. -/
theorem hasOidcSubject_of_linked (h : user.Linked slug subject) : hasOidcSubject subject user = true := by
  rw [hasOidcSubject, h.1, h.2, beq_self_eq_true]
  rfl

variable [EmailRules]

/-- The index keeps a row that breaks no constraint apart from the rows linked as it is. -/
theorem not_linked (h : violated users uniques user = none) (hrow : row ∈ users.rows) (hne : row.id ≠ user.id)
    (huser : user.Linked slug subject) : ¬ row.Linked slug subject := by
  intro hlinked
  have hclash := not_clash h (List.mem_cons_of_mem _ List.mem_cons_self) hrow hne
  simp only [hlinked.1, hlinked.2, huser.1, huser.2, Option.isSome_some, beq_self_eq_true, Bool.and_self] at hclash
  cases hclash

theorem LinksKept.of_update {refs : Bool} (h : updateIn "users" users uniques refs user.row = .ok users')
    (hallowed : ∀ row ∈ users.rows, row.id = user.id → allowed row) : LinksKept allowed users users' := by
  rcases updateIn_eq_ok h with ⟨-, rfl⟩ | ⟨hviolated, -, rfl⟩
  · exact .refl allowed _
  refine ⟨fun row hrow row' hrow' hid => ?_, fun hunique u hu v hv slug subject hul hvl => ?_⟩
  · rcases Table.mem_update.mp hrow' with ⟨rfl, -⟩ | ⟨hrow', -⟩
    · exact .inl (hallowed row hrow hid.symm)
    · exact (LinksKept.refl allowed users).relinked row hrow row' hrow' hid
  · rcases Table.mem_update.mp hu with ⟨rfl, -⟩ | ⟨hu, hune⟩
    · rcases Table.mem_update.mp hv with ⟨rfl, -⟩ | ⟨hv, hvne⟩
      · rfl
      · exact absurd hvl (not_linked hviolated hv hvne hul)
    · rcases Table.mem_update.mp hv with ⟨rfl, -⟩ | ⟨hv, -⟩
      · exact absurd hul (not_linked hviolated hu hune hvl)
      · exact hunique u hu v hv slug subject hul hvl

theorem LinksKept.of_insert {refs : Bool} (h : insertInto "users" users uniques refs user.row = .ok users') :
    LinksKept allowed users users' := by
  obtain ⟨hins, hviolated, -⟩ := insertInto_eq_ok h
  obtain ⟨hrows, hfree⟩ := Table.insert_eq_some hins
  refine ⟨fun row hrow row' hrow' hid => ?_, fun hunique u hu v hv slug subject hul hvl => ?_⟩
  · rw [hrows, List.mem_append, List.mem_singleton] at hrow'
    rcases hrow' with hrow' | rfl
    · exact (LinksKept.refl allowed users).relinked row hrow row' hrow' hid
    · exact absurd hid.symm (hfree row hrow)
  · rw [hrows, List.mem_append, List.mem_singleton] at hu hv
    rcases hu with hu | rfl
    · rcases hv with hv | rfl
      · exact hunique u hu v hv slug subject hul hvl
      · exact absurd hul (not_linked hviolated hu (hfree u hu) hvl)
    · rcases hv with hv | rfl
      · exact absurd hvl (not_linked hviolated hv (hfree v hv) hul)
      · rfl

end Links

/-! ## The parts of the flows -/

section Parts

variable {s : Accounts} {oidc : OidcService}

@[simp] theorem wp_answering {α : Type} {p : AccountStore α} {Q : α → Accounts → Prop}
    {E : Failure → Accounts → Prop} :
    wp (answering p) Q E s ↔ wp p Q (fun e => E (.answered e)) s := by
  simp only [wp, answering]
  cases p s <;> exact Iff.rfl

@[simp] theorem wp_fail {α : Type} {message : String} {Q : α → Accounts → Prop} {E : Failure → Accounts → Prop} :
    wp (fail message) Q E s ↔ E (.answered (.internalError message)) s := Iff.rfl

/-- The provider of an exchange is the one of the slug. -/
theorem exchange_slug {slug code : String} {pendingAuth : OidcPendingAuth} {provider : OidcProvider}
    {userInfo : OidcUserInfo} (h : oidc.exchange slug code pendingAuth = .ok (provider, userInfo)) :
    provider.slug = slug := by
  unfold exchange at h
  split at h
  · cases h
  · next p hp =>
    split at h
    · cases h
    · cases h
      have hslug := List.find?_some hp
      exact eq_of_beq hslug

/-- The users with an address, oldest first. -/
def withEmail (s : Accounts) (email : EmailAddress) : List User :=
  s.users.select (fun u => u.base.email == email) User.createdAt

theorem mem_withEmail {email : EmailAddress} {row : User} (h : row ∈ withEmail s email) :
    row ∈ s.users.rows ∧ row.base.email = email := by
  obtain ⟨hrow, hemail⟩ := Table.mem_select.mp h
  exact ⟨hrow, eq_of_beq hemail⟩

/-- Giving access to networks leaves the users as they are. -/
theorem wp_setNetworkIds {id : Uuid} {networkIds : List Uuid} :
    wp (UserService.setNetworkIds id networkIds) (fun _ t => t.users = s.users) (fun _ t => t.users = s.users) s := by
  simp [UserService.setNetworkIds]

variable [EmailRules]

theorem wp_mapM_fromRow {Q : List User → Accounts → Prop} {E : ApiError → Accounts → Prop} {rows : List User}
    (h : ∀ row ∈ rows, row.Readable) :
    wp (rows.mapM fun row => runStatement row.fromRow) Q E s ↔ Q (rows.map User.read) s := by
  induction rows generalizing Q with
  | nil => simp
  | cons row rows ih =>
    have hrow : row.fromRow = .ok row.read := User.fromRow_eq_ok.mpr ⟨h row List.mem_cons_self, rfl⟩
    simp only [List.mapM_cons, Program.wp_bind, wp_runStatement, hrow, reduceCtorEq, false_implies,
      implies_true, and_true, Except.ok.injEq, forall_eq']
    rw [ih fun row hrow => h row (List.mem_cons_of_mem _ hrow)]
    simp

/-- Users with one address are all read, or the first of them is not. -/
theorem wp_getAll_email {email : EmailAddress} {Q : List User → Accounts → Prop} {E : ApiError → Accounts → Prop} :
    wp (UserService.getAll fun u => u.base.email == email) Q E s ↔
      (withEmail s email = [] → Q [] s) ∧
      ∀ row rest, withEmail s email = row :: rest →
        (row.Readable → Q (row.read :: rest.map User.read) s) ∧ ∀ e, row.fromRow = .error e → E e s := by
  have hread : wp (UserService.getAll fun u => u.base.email == email) Q E s ↔
      wp ((withEmail s email).mapM fun row => runStatement row.fromRow) Q E s := Iff.rfl
  rw [hread]
  cases hrows : withEmail s email with
  | nil => simp
  | cons row rest =>
    have hemail : ∀ u ∈ row :: rest, u.base.email = email := fun u hu => (mem_withEmail (hrows ▸ hu)).2
    simp only [reduceCtorEq, false_implies, true_and, List.cons.injEq, and_imp, forall_apply_eq_imp_iff, forall_eq']
    by_cases hreadable : row.Readable
    · have hall : ∀ u ∈ row :: rest, u.Readable := by
        intro u hu
        rw [User.Readable, hemail u hu, ← hemail row List.mem_cons_self]
        exact hreadable
      have hrow : row.fromRow = .ok row.read := User.fromRow_eq_ok.mpr ⟨hreadable, rfl⟩
      rw [wp_mapM_fromRow hall]
      simp [hreadable, hrow]
    · cases hrow : row.fromRow with
      | ok u => exact absurd (User.fromRow_eq_ok.mp hrow).1 hreadable
      | error e => simp [List.mapM_cons, hrow, hreadable]

theorem wp_create {base : UserBase} (allowed : User → Prop) : wp (UserService.create base)
    (fun _ t => LinksKept allowed s.users t.users)
    (fun _ t => LinksKept allowed s.users t.users) s := by
  simp only [UserService.create, Program.wp_bind, AccountStore.wp_newV4, Program.wp_get, UserService.wp_getOne]
  refine ⟨fun _ => ?_, fun user _ => ⟨fun _ => ?_, fun _ _ => .refl _ _⟩⟩
  · simp only [wp_runStatement]
    refine ⟨fun users hins => ?_, fun _ _ => .refl _ _⟩
    have hkept : LinksKept allowed s.users users := .of_insert hins
    simp only [Program.wp_set]
    split
    · refine (Program.wp_bind.mpr (wp_setNetworkIds.mono (fun _ t ht => ?_) fun _ t ht => ?_))
      · rw [Program.wp_pure, ht]
        exact hkept
      · rw [ht]
        exact hkept
    · exact hkept
  · exact .refl _ _

theorem wp_provisionUser {params : ProvisionUserParams} {pendingSetup : Option PendingSetup} (allowed : User → Prop) :
    wp (oidc.provisionUser params pendingSetup) (fun _ t => LinksKept allowed s.users t.users)
      (fun _ t => LinksKept allowed s.users t.users) s := by
  unfold provisionUser
  cases params.orgId with
  | some orgId =>
    simp only [Program.wp_bind, Program.wp_pure, Program.wp_get]
    exact wp_create allowed
  | none =>
    simp only [OrganizationService.create, Program.wp_bind, Program.wp_pure, Program.wp_get, AccountStore.wp_newV4,
      wp_runStatement, Program.wp_set]
    refine ⟨fun organizations _ => ?_, fun _ _ => .refl _ _⟩
    exact wp_create (s := { s with organizations, drawn := s.drawn.tail }) allowed

end Parts

/-! ## The flows -/

inductive OidcRequest
  | register (pendingAuth : OidcPendingAuth) (params : LoginRegisterParams) (oidcParams : OidcRegisterParams)
      (pendingSetup : Option PendingSetup)
  | login (slug code : String) (pendingAuth : OidcPendingAuth)
  | link (slug : String) (userId : Uuid) (code : String) (pendingAuth : OidcPendingAuth)

/-- The user has the identity, or the address the provider gave. -/
def Matches (slug : String) (userInfo : OidcUserInfo) (user : User) : Prop :=
  user.Linked slug userInfo.subject ∨ userInfo.email = some user.base.email

instance (slug : String) (userInfo : OidcUserInfo) (user : User) : Decidable (Matches slug userInfo user) :=
  inferInstanceAs (Decidable (_ ∨ _))

section Requests

variable [EmailRules] (oidc : OidcService)

/-- The user is a stored one, of the allowed, and only links of these were changed. -/
def Returns (allowed : User → Prop) (s : Accounts) (user : User) (t : Accounts) : Prop :=
  LinksKept allowed s.users t.users ∧ Stands allowed s.users user

/-- The same for a registration, which may also be of a new user. -/
def Registers (allowed : User → Prop) (s : Accounts) (result : OidcRegisterResult) (t : Accounts) : Prop :=
  match result with
  | .newUser _ => LinksKept allowed s.users t.users
  | .existingUser user => Returns allowed s user t

/-- The request is answered with an error, and only links of the allowed were changed. -/
def Refuses (allowed : User → Prop) (s : Accounts) (e : Failure) (t : Accounts) : Prop :=
  LinksKept allowed s.users t.users ∧ e ≠ .aborted

omit [EmailRules] in
theorem answered_ne_aborted {e : ApiError} : Failure.answered e ≠ .aborted := by simp

omit [EmailRules] in
theorem Refuses.refl {allowed : User → Prop} {s : Accounts} {e : ApiError} : Refuses allowed s (.answered e) s :=
  ⟨.refl _ _, answered_ne_aborted⟩

/-- The identity that comes with the request has `R`. -/
def Presents (slug code : String) (pendingAuth : OidcPendingAuth) (R : OidcUserInfo → Prop) : Prop :=
  ∃ provider userInfo, oidc.exchange slug code pendingAuth = .ok (provider, userInfo) ∧ R userInfo

/-- A request takes its subject for the allowed users only, and is not aborted. -/
def Identifies (request : OidcRequest) (s : Accounts) : Prop :=
  match request with
  | .login slug code pendingAuth =>
    wp (oidc.login slug code pendingAuth)
      (fun user t => LinksKept (fun _ => False) s.users t.users ∧
        Stands (fun row => Presents oidc slug code pendingAuth fun userInfo => row.Linked slug userInfo.subject)
          s.users user)
      (Refuses (fun _ => False) s) s
  | .register pendingAuth params oidcParams pendingSetup =>
    let allowed := fun row => Presents oidc oidcParams.providerSlug oidcParams.code pendingAuth fun userInfo =>
      Matches oidcParams.providerSlug userInfo row
    wp (oidc.register pendingAuth params oidcParams pendingSetup) (Registers allowed s) (Refuses allowed s) s
  | .link slug userId code pendingAuth =>
    let allowed := fun row => row.id = userId ∨
      Presents oidc slug code pendingAuth fun userInfo => Matches slug userInfo row
    wp (oidc.linkToUser slug userId code pendingAuth) (Returns allowed s) (Refuses allowed s) s

/-- The account may be linked to a subject of the provider that no user has: it can be read,
is linked to no other provider, and the row is as the constraints of the table have it. -/
structure Joinable (s : Accounts) (slug : String) (row : User) : Prop where
  readable : row.Readable
  unlinked : linkedElsewhere row slug = none
  email : ∀ x ∈ s.users.rows, x.id ≠ row.id → EmailRules.lower x.base.email ≠ EmailRules.lower row.base.email
  organization : references s row = true

/-- The user the database finds for the subject has the identity or the address.
If there is none, the subject has its first eight bytes, and no account is found
for an address that is not the provider's. -/
def Registrable (s : Accounts) (oidcParams : OidcRegisterParams) (userInfo : OidcUserInfo) : Prop :=
  match s.users.rows.find? (hasOidcSubject userInfo.subject) with
  | some row => row.Readable → Matches oidcParams.providerSlug userInfo row
  | none =>
    ∃ firstBytes, bytePrefix 8 userInfo.subject.toList = some firstBytes ∧
      (userInfo.email = some (registrationEmail userInfo firstBytes) ∨
        (oidc.isEmailUnwanted (registrationEmail userInfo firstBytes) = true ∧ oidcParams.deploymentType = .cloud) ∨
        ∀ row, (withEmail s (registrationEmail userInfo firstBytes)).head? = some row →
          ¬ Joinable s oidcParams.providerSlug row)

/-- When a request identifies its user. -/
def Sound (request : OidcRequest) (s : Accounts) : Prop :=
  match request with
  | .login slug code pendingAuth => ∀ provider userInfo, oidc.exchange slug code pendingAuth = .ok (provider, userInfo) →
    ∀ row, s.users.rows.find? (hasOidcSubject userInfo.subject) = some row → row.Readable →
      row.base.oidcProvider = some slug
  | .register pendingAuth _ oidcParams _ => ∀ provider userInfo,
    oidc.exchange oidcParams.providerSlug oidcParams.code pendingAuth = .ok (provider, userInfo) →
      Registrable oidc s oidcParams userInfo
  | .link .. => True

variable {oidc} {s : Accounts}

omit [EmailRules] in
theorem linked_of_find {subject slug : String} {row : User}
    (h : s.users.rows.find? (hasOidcSubject subject) = some row) (hprovider : row.base.oidcProvider = some slug) :
    row.Linked slug subject := by
  have hfound := List.find?_some h
  simp only [hasOidcSubject, Bool.and_eq_true, beq_iff_eq] at hfound
  exact ⟨hprovider, hfound.1⟩

theorem login_identifies_iff {slug code : String} {pendingAuth : OidcPendingAuth} :
    Identifies oidc (.login slug code pendingAuth) s ↔ Sound oidc (.login slug code pendingAuth) s := by
  unfold Identifies
  refine Program.wp.iff ?_
  unfold login
  split
  · next e he => exact iff_of_true Refuses.refl fun provider userInfo h => by rw [he] at h; cases h
  next provider userInfo hexchange =>
  have hsound : Sound oidc (.login slug code pendingAuth) s ↔
      ∀ row, s.users.rows.find? (hasOidcSubject userInfo.subject) = some row → row.Readable →
        row.base.oidcProvider = some slug := by
    simp [Sound, hexchange]
  simp only [hsound, Program.wp_bind, wp_answering, UserService.getUserByOidc, UserService.wp_getOne, Program.wp_pure,
    wp_fail]
  refine ⟨fun hnone => ?_, fun row hrow => ⟨fun hreadable => ?_, fun e he => ?_⟩⟩
  · exact iff_of_true Refuses.refl fun row hrow => by rw [hnone] at hrow; cases hrow
  · have hstored := List.mem_of_find?_eq_some hrow
    constructor
    · rintro ⟨-, x, hx, hid, p, i, hpi, hlinked⟩ y hy -
      rw [hrow] at hy
      cases hy
      rw [s.users.eq_of_key hx hstored hid] at hlinked
      exact hlinked.1
    · intro h
      exact ⟨.refl _ _, row, hstored, rfl, provider, userInfo, hexchange, linked_of_find hrow (h row hrow hreadable)⟩
  · refine iff_of_true Refuses.refl fun y hy hreadable => ?_
    rw [hrow] at hy
    cases hy
    exact absurd hreadable (User.fromRow_eq_error he)

/-- Linking changes the user of the session, or nobody. -/
theorem link_identifies {slug : String} {userId : Uuid} {code : String} {pendingAuth : OidcPendingAuth} :
    Identifies oidc (.link slug userId code pendingAuth) s := by
  simp only [Identifies]
  unfold linkToUser
  split
  · exact Refuses.refl
  next provider userInfo hexchange =>
  simp only [Program.wp_bind, wp_answering, UserService.getUserByOidc, UserService.wp_getOne]
  refine ⟨fun _ => ?_, fun row hrow => ⟨fun _ => ?_, fun _ _ => Refuses.refl⟩⟩
  · simp only [UserService.wp_getById]
    refine ⟨fun _ => Refuses.refl, fun user huser => ⟨fun _ => ?_, fun _ _ => Refuses.refl⟩⟩
    obtain ⟨hstored, hid⟩ := Table.get_eq_some.mp huser
    split
    · exact Refuses.refl
    split
    · exact Refuses.refl
    simp only [Program.wp_bind, Program.wp_get, wp_answering, UserService.wp_update]
    refine ⟨fun _ => Refuses.refl,
      fun _ _ => ⟨fun _ => ⟨fun users hupdate => ?_, fun _ _ => Refuses.refl⟩, fun _ _ => Refuses.refl⟩⟩
    refine ⟨LinksKept.of_update hupdate fun x _ hx => .inl (hx.trans hid), user, hstored, rfl, .inl hid⟩
  · simp only [Program.wp_ite, Program.wp_pure, wp_fail, bne_iff_ne, ne_eq, Decidable.not_not]
    exact ⟨fun _ => Refuses.refl, fun hid => ⟨.refl _ _, row, List.mem_of_find?_eq_some hrow, rfl, .inl hid⟩⟩

/-- As no user has the subject, a linked row can only clash by its address. -/
theorem violated_link_iff {row : User} {slug subject : String} {now : DateTime}
    (hnew : s.users.rows.find? (hasOidcSubject subject) = none) :
    violated s.users uniques (link row.read slug subject now).row = none ↔
      ∀ x ∈ s.users.rows, x.id ≠ row.id → EmailRules.lower x.base.email ≠ EmailRules.lower row.base.email := by
  have hpair : ∀ x ∈ s.users.rows, ¬ x.Linked slug subject := fun x hx hlinked =>
    List.find?_eq_none.mp hnew x hx (hasOidcSubject_of_linked hlinked)
  have hemail : (link row.read slug subject now).row.base.email = row.base.email := rfl
  constructor
  · intro h x hx hne
    have hclash := not_clash h List.mem_cons_self hx hne
    simpa [hemail] using hclash
  · intro h
    rw [violated, Option.map_eq_none_iff, List.find?_eq_none]
    intro c hc
    simp only [uniques, List.mem_cons, List.not_mem_nil, or_false] at hc
    simp only [List.any_eq_true, Bool.and_eq_true, bne_iff_ne, not_exists, not_and]
    intro x hx hne
    rcases hc with rfl | rfl
    · simpa [hemail] using h x hx hne
    · simp only [Bool.and_eq_true, beq_iff_eq, not_and, and_imp]
      intro _ _ hprovider hsubject
      exact hpair x hx ⟨hprovider, hsubject⟩

/-- An account that can be joined is linked, and no other kind is. -/
theorem wp_autoLink {row : User} {provider : OidcProvider} {subject : String} (hrow : row ∈ s.users.rows)
    (hreadable : row.Readable) (hnew : s.users.rows.find? (hasOidcSubject subject) = none) :
    wp (oidc.autoLink row.read provider subject)
      (fun result t => Joinable s provider.slug row ∧ (∃ user, result = .existingUser user ∧ user.id = row.id) ∧
        ∀ allowed, allowed row → LinksKept allowed s.users t.users)
      (fun e t => ¬ Joinable s provider.slug row ∧ t = s ∧ e ≠ .aborted) s := by
  have hget : s.users.get row.id = some row := Table.get_eq_some.mpr ⟨hrow, rfl⟩
  unfold autoLink
  split
  · next other hother =>
    refine ⟨fun h => ?_, rfl, answered_ne_aborted⟩
    have hunlinked : linkedElsewhere row.read provider.slug = none := h.unlinked
    rw [hunlinked] at hother
    cases hother
  · next hunlinked =>
    have hgetlink : s.users.get (link row.read provider.slug subject s.now).id = some row := hget
    simp only [Program.wp_bind, Program.wp_get, wp_answering, UserService.wp_update, hgetlink, Program.wp_pure,
      reduceCtorEq, false_implies, true_and, Option.some.injEq, forall_eq']
    refine ⟨fun _ => ⟨fun users hupdate => ?_, fun e herror => ?_⟩,
      fun e he => absurd hreadable (User.fromRow_eq_error he)⟩
    · rcases updateIn_eq_ok hupdate with ⟨hmissing, -⟩ | ⟨hviolated, href, -⟩
      · rw [User.row_id, hgetlink] at hmissing
        cases hmissing
      refine ⟨⟨hreadable, hunlinked, (violated_link_iff hnew).mp hviolated, href⟩, ⟨_, rfl, rfl⟩,
        fun allowed hallowed => ?_⟩
      refine LinksKept.of_update hupdate fun x hx hid => ?_
      rwa [s.users.eq_of_key hx hrow hid]
    · refine ⟨fun hjoin => ?_, answered_ne_aborted⟩
      have hsome : (s.users.get (link row.read provider.slug subject s.now).row.id).isSome = true := by
        rw [User.row_id, hgetlink]
        rfl
      have hupdate : updateIn "users" s.users uniques
          (references s (link row.read provider.slug subject s.now))
          (link row.read provider.slug subject s.now).row = .ok _ :=
        updateIn_of hsome ((violated_link_iff hnew).mpr hjoin.email) hjoin.organization
      rw [herror] at hupdate
      cases hupdate

/-- Where nobody has the subject, the account with the address the request goes by decides. -/
theorem wp_registerByEmail {provider : OidcProvider} {userInfo : OidcUserInfo} {firstBytes : List Char}
    {params : LoginRegisterParams} {oidcParams : OidcRegisterParams} {pendingSetup : Option PendingSetup}
    (hnew : s.users.rows.find? (hasOidcSubject userInfo.subject) = none) :
    wp (oidc.registerByEmail provider userInfo firstBytes params oidcParams pendingSetup)
      (fun result t => Registers (Matches provider.slug userInfo) s result t ↔
        (userInfo.email = some (registrationEmail userInfo firstBytes) ∨
          (oidc.isEmailUnwanted (registrationEmail userInfo firstBytes) = true ∧ oidcParams.deploymentType = .cloud) ∨
          ∀ row, (withEmail s (registrationEmail userInfo firstBytes)).head? = some row →
            ¬ Joinable s provider.slug row))
      (fun e t => Refuses (Matches provider.slug userInfo) s e t ↔
        (userInfo.email = some (registrationEmail userInfo firstBytes) ∨
          (oidc.isEmailUnwanted (registrationEmail userInfo firstBytes) = true ∧ oidcParams.deploymentType = .cloud) ∨
          ∀ row, (withEmail s (registrationEmail userInfo firstBytes)).head? = some row →
            ¬ Joinable s provider.slug row)) s := by
  unfold registerByEmail
  generalize registrationEmail userInfo firstBytes = email
  simp only [Program.wp_ite, wp_fail, Bool.and_eq_true, beq_iff_eq, Program.wp_bind, wp_answering, wp_getAll_email]
  refine ⟨fun hrefused => iff_of_true Refuses.refl (.inr (.inl hrefused)), fun hrefused => ⟨fun hfree => ?_, ?_⟩⟩
  · -- a new user
    have hC : ∀ row, (withEmail s email).head? = some row → ¬ Joinable s provider.slug row := by
      intro row hrow
      rw [hfree] at hrow
      cases hrow
    simp only [Program.wp_pure]
    refine (wp_provisionUser (Matches provider.slug userInfo)).mono (fun _ t ht => ?_) fun _ t ht => ?_
    · exact iff_of_true ht (.inr (.inr hC))
    · exact iff_of_true ⟨ht, answered_ne_aborted⟩ (.inr (.inr hC))
  · -- the account with the address
    intro row rest hrows
    have hhead : (withEmail s email).head? = some row := by rw [hrows]; rfl
    obtain ⟨hstored, hemail⟩ := mem_withEmail (List.mem_of_mem_head? hhead)
    have hmatches : Matches provider.slug userInfo row ↔ userInfo.email = some email := by
      rw [Matches, hemail, or_iff_right]
      exact fun hlinked => List.find?_eq_none.mp hnew row hstored (hasOidcSubject_of_linked hlinked)
    have hhit : (∀ x, (withEmail s email).head? = some x → ¬ Joinable s provider.slug x) ↔
        ¬ Joinable s provider.slug row := by
      simp only [hhead, Option.some.injEq, forall_eq']
    refine ⟨fun hreadable => ?_, fun e he => ?_⟩
    · refine (wp_autoLink hstored hreadable hnew).mono (fun result t hlinked => ?_) ?_
      · obtain ⟨hjoin, ⟨user, rfl, hid⟩, hkept⟩ := hlinked
        rw [hhit]
        constructor
        · rintro ⟨-, x, hx, hxid, hxmatches⟩
          rw [s.users.eq_of_key hx hstored (hxid.trans hid)] at hxmatches
          exact .inl (hmatches.mp hxmatches)
        · rintro (hgiven | hunwanted | hnot)
          · exact ⟨hkept _ (hmatches.mpr hgiven), row, hstored, hid.symm, hmatches.mpr hgiven⟩
          · exact absurd hunwanted hrefused
          · exact absurd hjoin hnot
      · rintro e t ⟨hjoin, rfl, he⟩
        exact iff_of_true ⟨.refl _ _, he⟩ (.inr (.inr (hhit.mpr hjoin)))
    · exact iff_of_true Refuses.refl (.inr (.inr (hhit.mpr fun hjoin => User.fromRow_eq_error he hjoin.readable)))

theorem register_identifies_iff {pendingAuth : OidcPendingAuth} {params : LoginRegisterParams}
    {oidcParams : OidcRegisterParams} {pendingSetup : Option PendingSetup} :
    Identifies oidc (.register pendingAuth params oidcParams pendingSetup) s ↔
      Sound oidc (.register pendingAuth params oidcParams pendingSetup) s := by
  simp only [Identifies]
  refine Program.wp.iff ?_
  unfold register
  split
  · next e he => exact iff_of_true Refuses.refl fun provider userInfo h => by rw [he] at h; cases h
  next provider userInfo hexchange =>
  have hslug := exchange_slug hexchange
  have hsound : Sound oidc (.register pendingAuth params oidcParams pendingSetup) s ↔
      Registrable oidc s oidcParams userInfo := by
    simp [Sound, hexchange]
  have hallowed : (fun row => Presents oidc oidcParams.providerSlug oidcParams.code pendingAuth fun userInfo =>
      Matches oidcParams.providerSlug userInfo row) = Matches provider.slug userInfo := by
    funext row
    simp [Presents, hexchange, hslug]
  rw [hallowed, hsound]
  simp only [Program.wp_bind, wp_answering, UserService.getUserByOidc, UserService.wp_getOne]
  refine ⟨fun hnone => ?_, fun row hrow => ⟨fun hreadable => ?_, fun e he => ?_⟩⟩
  · rw [Registrable, hnone, ← hslug]
    dsimp only
    split
    · next hshort =>
      refine iff_of_false (fun h => h.2 rfl) fun hregistrable => ?_
      obtain ⟨firstBytes, hbytes, -⟩ := hregistrable
      rw [hshort] at hbytes
      cases hbytes
    · next firstBytes hbytes =>
      simp only [hbytes, Option.some.injEq, exists_eq_left']
      exact wp_registerByEmail hnone
  · have hstored := List.mem_of_find?_eq_some hrow
    rw [Registrable, hrow, ← hslug]
    constructor
    · rintro ⟨-, x, hx, hid, hmatches⟩ -
      rwa [s.users.eq_of_key hx hstored hid] at hmatches
    · intro h
      exact ⟨.refl _ _, row, hstored, rfl, h hreadable⟩
  · rw [Registrable, hrow]
    exact iff_of_true Refuses.refl fun hreadable => absurd hreadable (User.fromRow_eq_error he)

/-- **A request takes a subject for the user it belongs to**, without aborting, exactly if the user
found for the subject alone has the identity, or there is none and no made-up address stands in. -/
theorem identifies_iff (oidc : OidcService) (request : OidcRequest) (s : Accounts) :
    Identifies oidc request s ↔ Sound oidc request s := by
  cases request with
  | register pendingAuth params oidcParams pendingSetup => exact register_identifies_iff
  | login slug code pendingAuth => exact login_identifies_iff
  | link slug userId code pendingAuth => exact iff_of_true link_identifies trivial

end Requests

/-- Two providers give out the same subject, and the user is linked to the first. -/
theorem login_across_providers :
    ¬ @Identifies ⟨fun _ => none, String.toLower⟩
      { providers := [⟨"a", "A"⟩, ⟨"b", "B"⟩], exchangeCode := fun _ _ _ => .ok { subject := "108234917" } }
      (.login "b" "" {})
      { users := ⟨[{ id := 1, base := UserBase.newOidc "u@example.com" "108234917" (some "a") 2 .member [] none 0 }],
          by decide⟩ } := by
  intro h
  have hsound := (@login_identifies_iff ⟨fun _ => none, String.toLower⟩ _ _ _ _ _).mp h
  have hprovider := hsound ⟨"b", "B"⟩ { subject := "108234917" } rfl _ rfl rfl
  exact absurd hprovider (by decide)

end Netvisor.OidcService
