/-
What shares publish, after any requests that create and update them: the
topology a share names, to who has the password it was given last.

The network that is checked is the one a share names, and nothing compares it
with that of the topology. The password is the one that was set, whatever
requests came in between.
-/
import Mathlib.Logic.Function.Basic
import Netvisor.Auth.AccountsFacts
import Netvisor.Lib.Transition
import Netvisor.Shares.Handlers

namespace Netvisor.ShareHandlers

open Program (wp)
open Transition

variable [ShareService]

/-! ## The server -/

/-- The networks of who wrote a share last, and the password it was given. -/
structure Sharing where
  networkIds : List Uuid
  password : Option String
deriving DecidableEq, Repr

/-- What a share's password is after a request with this one. -/
def given (old : Option String) : Option String → Option String
  | none => old
  | some password => if password.isEmpty then none else some password

structure ShareServer where
  db : ShareDb
  last : Uuid → Option Sharing := fun _ => none

/-- The password a share was given last. -/
def ShareServer.passwordOf (s : ShareServer) (id : Uuid) : Option String := (s.last id).bind (·.password)

inductive Action
  | create (entity : AuthenticatedEntity) (share : Share) (password : Option String) (salt : String)
  | update (entity : AuthenticatedEntity) (id : Uuid) (share : Share) (password : Option String) (salt : String)

def step (s : ShareServer) : Action → Option ShareServer
  | .create entity share password salt =>
    match createShare entity share password salt s.db with
    | .ok created db =>
      some { db, last := Function.update s.last created.id (some ⟨entity.networkIds, given none password⟩) }
    | .error _ db => some { s with db }
  | .update entity id share password salt =>
    match updateShare entity id share password salt s.db with
    | .ok updated db =>
      let sharing := ⟨entity.networkIds, given (s.passwordOf updated.id) password⟩
      some { db, last := Function.update s.last updated.id (some sharing) }
    | .error _ db => some { s with db }

/-- Accounts and topologies, and no shares yet. -/
def start (accounts : Accounts) (topologies : Table Topology Topology.id) : ShareServer where
  db := { accounts, topologies }

/-- The topology is of a network of who wrote the share last, and a password is asked for if one
was set, which is then the one of the request. -/
structure Rightful (sharing : Sharing) (request : ShareRequest) (answer : ShareWithTopology) : Prop where
  network : answer.topology.base.networkId ∈ sharing.networkIds
  requiresPassword : answer.share.requiresPassword = sharing.password.isSome
  password : ∀ password, sharing.password = some password → request.password = some password

def Published (s : ShareServer) : Prop :=
  ∀ id request answer, getShareTopology id request s.db = .ok answer →
    ∃ sharing, s.last id = some sharing ∧ Rightful sharing request answer

/-! ## Requests that are accepted -/

/-- The password, if one is to be set, can be hashed. -/
def Hashable (password : Option String) (salt : String) : Prop :=
  (password.all fun password => password.isEmpty || (ShareService.hashPassword salt password).isOk) = true

def hasUser (db : ShareDb) (id : Uuid) : Bool := (db.accounts.users.get id).isSome

def hasNetwork (db : ShareDb) (id : Uuid) : Bool := (db.accounts.networks.get id).isSome

/-- The id a share is created with. -/
def newId (db : ShareDb) (share : Share) : Uuid :=
  if share.id == Uuid.nil then db.accounts.drawn.headD Uuid.nil else share.id

/-- A request to create a share passes all checks but the one that the topology is stored. -/
structure CreateAccepted (db : ShareDb) (entity : AuthenticatedEntity) (share : Share) (password : Option String)
    (salt : String) : Prop where
  feature : HasFeature (·.shareViews) db.accounts.organizations entity
  member : PermissionRequirement.member.authorized entity = none
  user : entity.userId.any (hasUser db) = true
  hashable : Hashable password salt
  network : share.base.networkId ∈ entity.networkIds
  networkStored : hasNetwork db share.base.networkId = true
  free : db.shares.get (newId db share) = none

structure UpdateAccepted (db : ShareDb) (entity : AuthenticatedEntity) (id : Uuid) (share : Share)
    (password : Option String) (salt : String) : Prop where
  member : PermissionRequirement.member.authorized entity = none
  organization : entity.organizationId.isSome = true
  existing : (db.shares.get id).any (fun existing => entity.networkIds.contains existing.base.networkId) = true
  user : hasUser db share.base.createdBy = true
  hashable : Hashable password salt
  network : share.base.networkId ∈ entity.networkIds
  networkStored : hasNetwork db share.base.networkId = true

/-- The topology is of one of the networks of the user. -/
def OfNetworks (db : ShareDb) (entity : AuthenticatedEntity) (share : Share) : Prop :=
  ∀ topology ∈ db.topologies.rows, topology.id = share.base.topologyId → topology.base.networkId ∈ entity.networkIds

/-- An enabled share that is created or updated names a topology of a network of the user. -/
def OwnTopology (s : ShareServer) : Action → Prop
  | .create entity share password salt =>
    CreateAccepted s.db entity share password salt → share.base.isEnabled = true → OfNetworks s.db entity share
  | .update entity id share password salt =>
    UpdateAccepted s.db entity id share password salt → share.base.isEnabled = true → OfNetworks s.db entity share

/-! ## The invariant -/

/-- The hash is one of the password. -/
def HashOf (password passwordHash : Option String) : Prop :=
  match password, passwordHash with
  | none, none => True
  | some password, some passwordHash => ∃ salt, ShareService.hashPassword salt password = .ok passwordHash
  | _, _ => False

/-- The share is as it was last written. -/
structure Kept (db : ShareDb) (share : Share) (sharing : Sharing) : Prop where
  topology : share.base.isEnabled = true → ∀ topology ∈ db.topologies.rows, topology.id = share.base.topologyId →
    topology.base.networkId ∈ sharing.networkIds
  password : HashOf sharing.password share.base.passwordHash

def Inv (s : ShareServer) : Prop := ∀ share ∈ s.db.shares.rows, ∃ sharing, s.last share.id = some sharing ∧
    Kept s.db share sharing

variable {s t : ShareServer} {db : ShareDb} {share : Share} {id : Uuid} {request : ShareRequest}
  {answer : ShareWithTopology}

/-- `verify_password` accepts a hash of no other password. -/
def Verifies : Prop := ∀ salt password passwordHash presented,
    ShareService.hashPassword salt password = .ok passwordHash →
  ShareService.verifyPassword presented passwordHash = true → presented = password

theorem checkPassword_eq_ok {password : Option String} (h : checkPassword share password = .ok ()) :
    ∀ passwordHash, share.base.passwordHash = some passwordHash →
      ∃ presented, password = some presented ∧ ShareService.verifyPassword presented passwordHash = true := by
  intro passwordHash hhash
  simp only [checkPassword, Share.requiresPassword, hhash, Option.isSome_some, if_true] at h
  split at h
  · next presented =>
    split at h
    · next hverify => exact ⟨presented, rfl, by simpa [ShareService.verifySharePassword, hhash] using hverify⟩
    · cases h
  · cases h

/-- An answer is of an enabled share, whose password was presented. -/
theorem of_getShareTopology (h : getShareTopology id request db = .ok answer) :
    ∃ share ∈ db.shares.rows, share.id = id ∧
    share.base.isEnabled = true ∧
      (answer.topology ∈ db.topologies.rows ∧ answer.topology.id = share.base.topologyId) ∧
    answer.share = .from share ∧ ∀ passwordHash, share.base.passwordHash = some passwordHash →
      ∃ password, request.password = some password ∧ ShareService.verifyPassword password passwordHash = true := by
  unfold getShareTopology at h
  split at h
  · cases h
  next share hshare =>
  obtain ⟨hmem, hid⟩ := Table.get_eq_some.mp hshare
  split at h
  · cases h
  next hvalid =>
  have henabled : share.base.isEnabled = true := by
    by_contra hdisabled
    simp [Share.isValid, hdisabled] at hvalid
  cases hplan : getShareOrgPlan db share with
  | error e =>
    rw [hplan] at h
    cases h
  | ok plan =>
    rw [hplan] at h
    simp only [bind, Except.bind] at h
    split at h
    · cases h
    cases hpassword : checkPassword share request.password with
    | error e =>
      rw [hpassword] at h
      cases h
    | ok _ =>
      rw [hpassword] at h
      cases hdomain : checkDomain share request with
      | error e =>
        rw [hdomain] at h
        cases h
      | ok _ =>
        rw [hdomain] at h
        simp only at h
        split at h
        · cases h
        next topology htopology =>
        cases h
        exact ⟨share, hmem, hid, henabled, Table.get_eq_some.mp htopology, rfl, checkPassword_eq_ok hpassword⟩

theorem published_of_inv (hverifies : Verifies) (h : Inv s) : Published s := by
  intro id request answer hanswer
  obtain ⟨share, hshare, rfl, henabled, ⟨htopology, htopologyId⟩, hmetadata, hpassword⟩ := of_getShareTopology hanswer
  obtain ⟨sharing, hlast, hkept⟩ := h share hshare
  refine ⟨sharing, hlast, hkept.topology henabled _ htopology htopologyId, ?_, ?_⟩
  · have hhash := hkept.password
    rw [hmetadata]
    cases hgiven : sharing.password <;> cases hstored : share.base.passwordHash <;>
      simp_all [HashOf, PublicShareMetadata.from, Share.requiresPassword]
  · intro password hgiven
    have hhash := hkept.password
    rw [hgiven] at hhash
    cases hstored : share.base.passwordHash with
    | none =>
      rw [hstored] at hhash
      exact hhash.elim
    | some passwordHash =>
      rw [hstored] at hhash
      obtain ⟨salt, hsalt⟩ := hhash
      obtain ⟨presented, hrequest, hverify⟩ := hpassword passwordHash hstored
      rw [hrequest, hverifies salt password passwordHash presented hsalt hverify]

/-! ## Writes -/

@[simp] theorem wp_hash {salt password : String} {Q : String → ShareDb → Prop} {E : ApiError → ShareDb → Prop} :
    wp (hash salt password) Q E db ↔ (∀ passwordHash, ShareService.hashPassword salt password = .ok passwordHash →
      Q passwordHash db) ∧ ∀ e, ShareService.hashPassword salt password = .error e → E (.internalError e) db := by
  unfold hash
  split <;> simp_all

omit [ShareService] in
@[simp] theorem wp_validateNetworkAccess {entity : AuthenticatedEntity} {networkId : Uuid} {Q : Unit → ShareDb → Prop}
    {E : ApiError → ShareDb → Prop} : wp (validateNetworkAccess entity networkId) Q E db ↔
      (networkId ∈ entity.networkIds → Q () db) ∧
        (networkId ∉ entity.networkIds → E (.entityAccessDenied "Network" networkId) db) := by
  unfold validateNetworkAccess
  simp [Program.wp_ite]

/-- The hash that goes with a request's password. -/
def NewHash (old password : Option String) (salt : String) (passwordHash : Option String) : Prop :=
  match password with
  | none => passwordHash = old
  | some password =>
    if password.isEmpty then passwordHash = none
    else ∃ hashed, ShareService.hashPassword salt password = .ok hashed ∧ passwordHash = some hashed

theorem NewHash.hashable {old password passwordHash : Option String} {salt : String}
    (h : NewHash old password salt passwordHash) : Hashable password salt := by
  unfold NewHash at h
  split at h
  · rfl
  · split at h
    · next hempty => simp [Hashable, hempty]
    · obtain ⟨hashed, hhashed, -⟩ := h
      simp [Hashable, hhashed, Except.isOk, Except.toBool]

theorem NewHash.hashOf {old oldHash password passwordHash : Option String} {salt : String}
    (h : NewHash oldHash password salt passwordHash) (hold : HashOf old oldHash) :
    HashOf (given old password) passwordHash := by
  unfold NewHash at h
  split at h
  · rw [h]
    exact hold
  · split at h
    · next hempty => simp [given, hempty, h, HashOf]
    · next hempty =>
      obtain ⟨hashed, hhashed, rfl⟩ := h
      simp only [given, hempty]
      exact ⟨salt, hhashed⟩

theorem Inv.drawn (h : Inv s) (drawn : List Uuid) : Inv { s with db.accounts.drawn := drawn } := by
  intro x hx
  obtain ⟨sharing, hlast, hkept⟩ := h x hx
  exact ⟨sharing, hlast, hkept.topology, hkept.password⟩

/-- A share that is inserted under a free id. -/
theorem Inv.insert {sharing : Sharing} {shares : Table Share Share.id} (h : Inv s)
    (hinsert : s.db.shares.insert share = some shares) (hshare : Kept s.db share sharing) (drawn : List Uuid) :
    Inv { db := { s.db with shares, accounts.drawn := drawn },
          last := Function.update s.last share.id (some sharing) } := by
  obtain ⟨hrows, hfresh⟩ := Table.insert_eq_some hinsert
  intro x hx
  rw [hrows, List.mem_append, List.mem_singleton] at hx
  rcases hx with hx | rfl
  · obtain ⟨old, hlast, hkept⟩ := h x hx
    exact ⟨old, (Function.update_of_ne (hfresh x hx) ..).trans hlast, hkept.topology, hkept.password⟩
  · exact ⟨sharing, Function.update_self .., hshare.topology, hshare.password⟩

/-- A share that replaces the one with its id. -/
theorem Inv.update {sharing : Sharing} (h : Inv s) (hshare : Kept s.db share sharing) :
    Inv { db := { s.db with shares := s.db.shares.update share },
          last := Function.update s.last share.id (some sharing) } := by
  intro x hx
  rcases Table.mem_update.mp hx with ⟨rfl, -⟩ | ⟨hx, hne⟩
  · exact ⟨sharing, Function.update_self .., hshare.topology, hshare.password⟩
  · obtain ⟨old, hlast, hkept⟩ := h x hx
    exact ⟨old, (Function.update_of_ne hne ..).trans hlast, hkept.topology, hkept.password⟩

omit [ShareService] in
theorem wp_orNew {Q : Share → ShareDb → Prop} {E : ApiError → ShareDb → Prop}
    (hQ : ∀ createdAt updatedAt drawn,
      Q { share with id := newId db share, createdAt, updatedAt } { db with accounts.drawn := drawn }) :
    wp (ShareService.orNew share) Q E db := by
  unfold ShareService.orNew
  simp only [Program.wp_ite, Program.wp_bind, Program.wp_get, Program.wp_set, Program.wp_pure]
  refine ⟨fun hnil => ?_, fun hid => ?_⟩
  · have hnew := hQ db.accounts.now db.accounts.now db.accounts.drawn.tail
    rwa [newId, if_pos hnil] at hnew
  · have hsame := hQ share.createdAt share.updatedAt db.accounts.drawn
    rwa [newId, if_neg hid] at hsame

theorem Inv.wp_createShare {entity : AuthenticatedEntity} {password : Option String} {salt : String} (h : Inv s)
    (hok : OwnTopology s (.create entity share password salt)) : wp (createShare entity share password salt)
      (fun created db =>
        Inv { db, last := Function.update s.last created.id (some ⟨entity.networkIds, given none password⟩) })
      (fun _ db => Inv { s with db }) s.db := by
  simp only [createShare, Program.wp_bind, Program.wp_get]
  refine wp_requireFeature (fun hfeature => ?_) fun _ _ => h
  rw [wp_authorize]
  refine ⟨fun hmember => ?_, fun _ _ => h⟩
  -- the rest, whatever the hash is
  have hrest : ∀ passwordHash, NewHash none password salt passwordHash →
      ∀ userId, entity.userId = some userId → wp (createHandler entity
        { share.deserialize with base.passwordHash := passwordHash, base.createdBy := userId })
      (fun created db =>
        Inv { db, last := Function.update s.last created.id (some ⟨entity.networkIds, given none password⟩) })
      (fun _ db => Inv { s with db }) s.db := by
    intro passwordHash hhash userId huser
    unfold createHandler
    split
    · exact h
    simp only [Program.wp_bind, wp_validateNetworkAccess]
    refine ⟨fun hnetwork => ?_, fun _ => h⟩
    simp only [ShareService.create, Program.wp_bind]
    refine wp_orNew fun createdAt updatedAt drawn => ?_
    simp only [Program.wp_get, wp_runStatement, Program.wp_set, Program.wp_pure]
    refine ⟨fun shares hshares => ?_, fun _ _ => h.drawn drawn⟩
    obtain ⟨hinsert, -, hreferences⟩ := insertInto_eq_ok hshares
    refine h.insert hinsert ⟨fun henabled => ?_, hhash.hashOf (show HashOf none none from trivial)⟩ drawn
    simp only [ShareService.references, Bool.and_eq_true] at hreferences
    refine hok ⟨hfeature, hmember, ?_, hhash.hashable, hnetwork, hreferences.1.2, ?_⟩ henabled
    · rw [huser]
      exact hreferences.2
    · exact Table.get_eq_none.mpr (Table.insert_eq_some hinsert).2
  cases huser : entity.userId with
  | none =>
    split
    · rw [Program.wp_ite]
      refine ⟨fun _ => h, fun _ => ?_⟩
      rw [Program.wp_bind, Program.wp_map, wp_hash]
      exact ⟨fun _ _ => h, fun _ _ => h⟩
    · exact h
  | some userId =>
    split
    · next password =>
      rw [Program.wp_ite]
      refine ⟨fun hempty => hrest _ ?_ userId huser, fun hempty => ?_⟩
      · simp [NewHash, hempty, Share.deserialize]
      · rw [Program.wp_bind, Program.wp_map, wp_hash]
        refine ⟨fun passwordHash hhashed => hrest _ ?_ userId huser, fun _ _ => h⟩
        simp [NewHash, hempty, hhashed]
    · exact hrest _ rfl userId huser

/-- What is stored of a share under its id. -/
theorem Inv.last (h : Inv s) {existing : Share} (hget : s.db.shares.get id = some existing) :
    ∃ sharing, s.last id = some sharing ∧ HashOf sharing.password existing.base.passwordHash := by
  obtain ⟨hmem, rfl⟩ := Table.get_eq_some.mp hget
  obtain ⟨sharing, hlast, hkept⟩ := h existing hmem
  exact ⟨sharing, hlast, hkept.password⟩

theorem Inv.wp_updateShare {entity : AuthenticatedEntity} {password : Option String} {salt : String} (h : Inv s)
    (hok : OwnTopology s (.update entity id share password salt)) : wp (updateShare entity id share password salt)
      (fun updated db =>
        Inv { db, last := Function.update s.last updated.id
                (some ⟨entity.networkIds, given (s.passwordOf updated.id) password⟩) })
      (fun _ db => Inv { s with db }) s.db := by
  simp only [updateShare, Program.wp_bind, wp_authorize]
  refine ⟨fun hmember => ?_, fun _ _ => h⟩
  rw [Program.wp_get]
  split
  · exact h
  next existing hget =>
  obtain ⟨hmem, hid⟩ := Table.get_eq_some.mp hget
  obtain ⟨sharing, hlast, hold⟩ := h.last hget
  -- the rest, whatever the hash is
  have hrest : ∀ passwordHash, NewHash existing.base.passwordHash password salt passwordHash →
      wp (updateHandler entity id { share.deserialize with base.passwordHash := passwordHash })
        (fun updated db =>
          Inv { db, last := Function.update s.last updated.id
                  (some ⟨entity.networkIds, given (s.passwordOf updated.id) password⟩) })
        (fun _ db => Inv { s with db }) s.db := by
    intro passwordHash hhash
    unfold updateHandler
    split
    · exact h
    next organizationId horganization =>
    simp only [Program.wp_bind, Program.wp_get, hget, wp_validateNetworkAccess]
    refine ⟨fun hexisting => ⟨fun hnetwork => ?_, fun _ => h⟩, fun _ => h⟩
    simp only [ShareService.update, Program.wp_bind, Program.wp_get, hid, hget, wp_runStatement, Program.wp_set,
      Program.wp_pure]
    refine ⟨fun shares hshares => ?_, fun _ _ => h⟩
    rcases updateIn_eq_ok hshares with ⟨hmissing, -⟩ | ⟨-, hreferences, rfl⟩
    · rw [hget] at hmissing
      cases hmissing
    · simp only [ShareService.references, Bool.and_eq_true] at hreferences
      refine h.update ⟨fun henabled => ?_, ?_⟩
      · refine hok ⟨hmember, ?_, ?_, hreferences.2, hhash.hashable, hnetwork, hreferences.1.2⟩ henabled
        · rw [horganization]
          rfl
        · rw [hget]
          simpa using hexisting
      · have hpassword : s.passwordOf id = sharing.password := by
          rw [ShareServer.passwordOf, hlast]
          rfl
        rw [hpassword]
        exact hhash.hashOf hold
  split
  · exact hrest _ rfl
  · next password =>
    rw [Program.wp_ite]
    refine ⟨fun hempty => hrest _ ?_, fun hempty => ?_⟩
    · simp [NewHash, hempty]
    · rw [Program.wp_bind, Program.wp_map, wp_hash]
      refine ⟨fun passwordHash hhashed => hrest _ ?_, fun _ _ => h⟩
      simp [NewHash, hempty, hhashed]

theorem inv_step {a : Action} (h : Inv s) (hok : OwnTopology s a) (hstep : step s a = some t) : Inv t := by
  cases a with
  | create entity share password salt =>
    have hwp := h.wp_createShare hok
    simp only [step] at hstep
    split at hstep
    · next created db hresult =>
      cases hstep
      exact (Program.wp_of_ok hresult).mp hwp
    · next e db hresult =>
      cases hstep
      exact (Program.wp_of_error hresult).mp hwp
  | update entity id share password salt =>
    have hwp := h.wp_updateShare hok
    simp only [step] at hstep
    split at hstep
    · next updated db hresult =>
      cases hstep
      exact (Program.wp_of_ok hresult).mp hwp
    · next e db hresult =>
      cases hstep
      exact (Program.wp_of_error hresult).mp hwp

/-- **Shares publish what their authors may see, to who has the password**, in a run in which every
enabled share that is accepted names a topology of one of the networks of its author. -/
theorem published_of_own (hverifies : Verifies) (accounts : Accounts) (topologies : Table Topology Topology.id)
    (run : List Action) (h : Along step OwnTopology (start accounts topologies) run) :
    Visits step Published (start accounts topologies) run :=
  h.visits (fun _ _ _ hinv hok hstep => inv_step hinv hok hstep) (fun _ => published_of_inv hverifies)
    fun _ hshare => nomatch hshare

/-! ## Runs -/

section Decidable

variable (db : ShareDb) (entity : AuthenticatedEntity) (id : Uuid) (share : Share) (password : Option String)
  (salt : String)

instance : Decidable (Hashable password salt) := inferInstanceAs (Decidable (_ = _))

instance : Decidable (CreateAccepted db entity share password salt) :=
  decidable_of_iff
    (HasFeature (·.shareViews) db.accounts.organizations entity ∧
      PermissionRequirement.member.authorized entity = none ∧
      entity.userId.any (hasUser db) = true ∧ Hashable password salt ∧ share.base.networkId ∈ entity.networkIds ∧
      hasNetwork db share.base.networkId = true ∧ db.shares.get (newId db share) = none)
    ⟨fun ⟨h1, h2, h3, h4, h5, h6, h7⟩ => ⟨h1, h2, h3, h4, h5, h6, h7⟩,
      fun ⟨h1, h2, h3, h4, h5, h6, h7⟩ => ⟨h1, h2, h3, h4, h5, h6, h7⟩⟩

instance : Decidable (UpdateAccepted db entity id share password salt) :=
  decidable_of_iff
    (PermissionRequirement.member.authorized entity = none ∧ entity.organizationId.isSome = true ∧
      (db.shares.get id).any (fun existing => entity.networkIds.contains existing.base.networkId) = true ∧
      hasUser db share.base.createdBy = true ∧ Hashable password salt ∧ share.base.networkId ∈ entity.networkIds ∧
      hasNetwork db share.base.networkId = true)
    ⟨fun ⟨h1, h2, h3, h4, h5, h6, h7⟩ => ⟨h1, h2, h3, h4, h5, h6, h7⟩,
      fun ⟨h1, h2, h3, h4, h5, h6, h7⟩ => ⟨h1, h2, h3, h4, h5, h6, h7⟩⟩

omit [ShareService] in
instance : Decidable (OfNetworks db entity share) :=
  inferInstanceAs (Decidable (∀ topology ∈ db.topologies.rows, _ → _))

instance (s : ShareServer) (a : Action) : Decidable (OwnTopology s a) := by
  unfold OwnTopology
  cases a <;> infer_instance

end Decidable

omit [ShareService] in
theorem nodup_twoOrganizations_networks :
    (List.map Network.id [{ id := 10, organizationId := 2 }, { id := 20, organizationId := 3 }]).Nodup := by decide

/-- Two organizations, each with a user, a network and a topology. -/
def twoOrganizations : Accounts where
  organizations := ⟨[{ id := 2, plan := some .pro }, { id := 3, plan := some .pro }], by decide⟩
  networks := ⟨[{ id := 10, organizationId := 2 }, { id := 20, organizationId := 3 }], nodup_twoOrganizations_networks⟩
  users := ⟨[{ id := 1, base := { email := "a@example.com", organizationId := 2, permissions := .member } },
    { id := 9, base := { email := "b@example.com", organizationId := 3, permissions := .member } }], by decide⟩
  drawn := [100]

def theirTopologies : Table Topology Topology.id :=
  ⟨[{ id := 7, base := { networkId := 10 } }, { id := 8, base := { networkId := 20 } }], by decide⟩

omit [ShareService] in
/-- Both share their own topology, and one share gets another password. -/
theorem published_when_own :
    Visits (@step ⟨fun _ password => .ok password, (· == ·), fun _ => none⟩)
      (@Published ⟨fun _ password => .ok password, (· == ·), fun _ => none⟩) (start twoOrganizations theirTopologies)
      [.create (.user 1 2 .member [10] true) { base := { topologyId := 7, networkId := 10, isEnabled := true } }
          (some "secret") "",
        .create (.user 9 3 .member [20] true)
          { id := 101, base := { topologyId := 8, networkId := 20, isEnabled := true } }
          none "",
        .update (.user 1 2 .member [10] true) 100
          { base := { topologyId := 7, networkId := 10, createdBy := 1, isEnabled := true } } (some "other") ""] :=
  @published_of_own ⟨fun _ password => .ok password, (· == ·), fun _ => none⟩
    (fun _ _ _ _ hhash hverify => by
      cases hhash
      exact beq_iff_eq.mp hverify)
    _ _ _ (by decide +kernel)

omit [ShareService] in
/-- A share names a network of its author and a topology of another organization's. -/
theorem foreign_topology_published :
    ¬ Visits (@step ⟨fun _ password => .ok password, (· == ·), fun _ => none⟩)
      (@Published ⟨fun _ password => .ok password, (· == ·), fun _ => none⟩) (start twoOrganizations theirTopologies)
      [.create (.user 1 2 .member [10] true) { base :=
        { topologyId := 8, networkId := 10, isEnabled := true } } none ""] := by
  intro h
  let service : ShareService := ⟨fun _ password => .ok password, (· == ·), fun _ => none⟩
  have hanswer := h.2.mono (S := fun _ _ t => (getShareTopology 100 {} t.db).toOption.all fun answer =>
    (t.last 100).any fun sharing => sharing.networkIds.contains answer.topology.base.networkId) ?_
  · exact absurd hanswer (by decide +kernel)
  · intro s a t _ ht
    rw [Option.all_eq_true]
    intro answer hanswer
    cases hresult : getShareTopology 100 {} t.db with
    | error e =>
      rw [hresult] at hanswer
      cases hanswer
    | ok found =>
      rw [hresult] at hanswer
      cases hanswer
      obtain ⟨sharing, hlast, hrightful⟩ := ht 100 {} answer hresult
      simpa [hlast] using hrightful.network

end Netvisor.ShareHandlers
