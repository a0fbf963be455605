/-
An organization that has an owner, and what takes the last one away.

Each endpoint looks for another owner before it writes, and a request that is
alone leaves one. But what a check has found may be gone by the time of the
write: two owners can delete each other. An owner is kept exactly as long as
every write leaves one at the moment it is issued.
-/
import Netvisor.Lib.Rely
import Netvisor.Users.DeletionFacts

namespace Netvisor

open Program (after)
open Transition (Visits Along)
open UserHandlers (Writable)
open UserTables (isOwnerOf isOwnerOf_iff)

namespace UserTables

variable {s t : UserTables} {organizationId : Uuid}

def HasOwner (organizationId : Uuid) (s : UserTables) : Prop :=
  ∃ u ∈ s.accounts.users.rows, isOwnerOf organizationId u = true

instance : Decidable (HasOwner organizationId s) := inferInstanceAs (Decidable (∃ u ∈ _, _))

/-- The statement leaves an owner: one of the others, or the row written is one, or the database refuses it. -/
def Leaves [EmailRules] (organizationId : Uuid) : UserStatement → UserTables → Prop
  | .delete ids, s =>
    s.Stranded ids ∨ ∃ u ∈ s.accounts.users.rows, isOwnerOf organizationId u = true ∧ u.id ∉ ids
  | .update user, s =>
    ¬ Writable s.accounts user ∨ isOwnerOf organizationId user = true ∨
      ∃ u ∈ s.accounts.users.rows, isOwnerOf organizationId u = true ∧ u.id ≠ user.id
  | .query, _ | .setNetworkIds, _ => True

theorem hasOwner_iff_leaves [EmailRules] {label : UserStatement} (h : HasOwner organizationId s)
    (heffect : UserProcess.Effect label s t) : HasOwner organizationId t ↔ Leaves organizationId label s := by
  cases label with
  | query =>
    cases heffect
    exact iff_of_true h trivial
  | setNetworkIds =>
    have husers : t.accounts.users = s.accounts.users := heffect
    rw [HasOwner, husers]
    exact iff_of_true h trivial
  | delete ids =>
    cases heffect
    simp only [HasOwner, mem_after_deleteUsers, Leaves]
    constructor
    · rintro ⟨u, ⟨hu, hstranded | hid⟩, howner⟩
      · exact .inl hstranded
      · exact .inr ⟨u, hu, howner, hid⟩
    · rintro (hstranded | ⟨u, hu, howner, hid⟩)
      · obtain ⟨u, hu, howner⟩ := h
        exact ⟨u, ⟨hu, .inl hstranded⟩, howner⟩
      · exact ⟨u, ⟨hu, .inr hid⟩, howner⟩
  | update user =>
    have husers : t.accounts.users = if _ then _ else _ := heffect
    rw [HasOwner, husers]
    by_cases hwritable : Writable s.accounts user
    · rw [if_pos hwritable]
      simp only [Leaves, hwritable, not_true_eq_false, false_or]
      constructor
      · rintro ⟨u, hu, howner⟩
        rcases Table.mem_update.mp hu with ⟨rfl, -⟩ | ⟨hu, hid⟩
        · exact .inl howner
        · exact .inr ⟨u, hu, howner, hid⟩
      · rintro (howner | ⟨u, hu, howner, hid⟩)
        · cases hget : s.accounts.users.get user.id with
          | none =>
            rw [Table.update_missing hget]
            exact h
          | some stored =>
            exact ⟨user, (Table.get_eq_some.mp (Table.get_update_self hget rfl)).1, howner⟩
        · exact ⟨u, (Table.mem_update_of_ne hid).mpr hu, howner⟩
    · rw [if_neg hwritable]
      exact iff_of_true h (.inl hwritable)

/-! ## What a request relies on -/

/-- No owner is made or unmade, and every user stays and keeps the address. -/
structure Steady (organizationId : Uuid) (s t : UserTables) : Prop where
  owners : ∀ u, isOwnerOf organizationId u = true → (u ∈ s.accounts.users.rows ↔ u ∈ t.accounts.users.rows)
  addresses : ∀ u ∈ s.accounts.users.rows, ∃ v ∈ t.accounts.users.rows, v.id = u.id ∧ v.base.email = u.base.email

theorem Steady.refl (s : UserTables) : Steady organizationId s s :=
  ⟨fun _ _ => Iff.rfl, fun u hu => ⟨u, hu, rfl, rfl⟩⟩

theorem Steady.trans {s t u : UserTables} (h : Steady organizationId s t) (h' : Steady organizationId t u) :
    Steady organizationId s u where
  owners x hx := (h.owners x hx).trans (h'.owners x hx)
  addresses x hx := by
    obtain ⟨y, hy, hid, hemail⟩ := h.addresses x hx
    obtain ⟨z, hz, hid', hemail'⟩ := h'.addresses y hy
    exact ⟨z, hz, hid'.trans hid, hemail'.trans hemail⟩

/-- There is an owner next to the users with the ids. -/
def HasOwnerBeside (organizationId : Uuid) (ids : List Uuid) (s : UserTables) : Prop :=
  ∃ u ∈ s.accounts.users.rows, isOwnerOf organizationId u = true ∧ u.id ∉ ids

theorem HasOwner.steady (h : HasOwner organizationId s) (hst : Steady organizationId s t) :
    HasOwner organizationId t := by
  obtain ⟨u, hu, howner⟩ := h
  exact ⟨u, (hst.owners u howner).mp hu, howner⟩

theorem HasOwnerBeside.steady {ids : List Uuid} (h : HasOwnerBeside organizationId ids s)
    (hst : Steady organizationId s t) : HasOwnerBeside organizationId ids t := by
  obtain ⟨u, hu, howner, hid⟩ := h
  exact ⟨u, (hst.owners u howner).mp hu, howner, hid⟩

/-- The users of another organization are no owners of this one. -/
theorem HasOwner.beside {ids : List Uuid} (h : HasOwner organizationId s)
    (hids : ∀ u ∈ s.accounts.users.rows, u.id ∈ ids → u.base.organizationId ≠ organizationId) :
    HasOwnerBeside organizationId ids s := by
  obtain ⟨u, hu, howner⟩ := h
  exact ⟨u, hu, howner, fun hid => hids u hu hid (isOwnerOf_iff.mp howner).1⟩

end UserTables

/-! ## One request -/

namespace UserProcess

open Process (Secures secures_bind secures_statement)
open UserTables (HasOwner HasOwnerBeside Leaves Steady deleteUsers onAccounts wp_onAccounts)

variable [EmailRules] {s : UserTables} {organizationId : Uuid} {entity : AuthenticatedEntity} {id : Uuid}
  {ids : List Uuid}

/-- Where the others are steady, every statement leaves an owner. -/
abbrev Leaving {α : Type} (organizationId : Uuid) (Q : α → UserTables → Prop) (p : UserProcess α) (s : UserTables) :
    Prop :=
  Secures (Steady organizationId) (fun label s _ => Leaves organizationId label s) Q (fun _ _ => True) p s

section Rules

theorem leaving_getById {Q : Option User → UserTables → Prop}
    (hnone : ∀ t, Steady organizationId s t → t.accounts.users.get id = none → Q none t)
    (hsome : ∀ t user, Steady organizationId s t → t.accounts.users.get id = some user → Q (some user.read) t) :
    Leaving organizationId Q (getById id) s := by
  refine secures_statement.mpr fun t ht => ⟨trivial, ?_⟩
  rw [wp_onAccounts, wp_internally, UserService.wp_getById]
  exact ⟨hnone t ht, fun user hget => ⟨fun _ => hsome t user ht hget, fun _ _ => trivial⟩⟩

theorem leaving_getAll {p : User → Bool} {Q : List User → UserTables → Prop}
    (hQ : ∀ t, Steady organizationId s t → Q ((t.accounts.users.select p User.createdAt).map User.read) t) :
    Leaving organizationId Q (getAll p) s := by
  refine secures_statement.mpr fun t ht => ⟨trivial, ?_⟩
  rw [wp_onAccounts, wp_internally]
  exact UserService.wp_getAll_read (hQ t ht) fun _ => trivial

theorem leaving_authorized {p : PermissionRequirement} {Q : Unit → UserTables → Prop} (hQ : Q () s) :
    Leaving organizationId Q (authorized p entity) s := by
  unfold authorized
  split
  · trivial
  · exact hQ

theorem leaving_caller {Q : Uuid × UserOrgPermissions → UserTables → Prop} (hQ : ∀ c, Q c s) :
    Leaving organizationId Q (caller entity) s := by
  rw [Leaving, caller, secures_bind]
  refine leaving_authorized ?_
  split
  · trivial
  · trivial
  · exact hQ _

theorem leaving_validateDeleteAccess {user : User} {callerOrganization : Uuid} {Q : Unit → UserTables → Prop}
    (hQ : user.base.organizationId = callerOrganization → Q () s) :
    Leaving organizationId Q (validateDeleteAccess user callerOrganization) s := by
  unfold validateDeleteAccess
  split
  · trivial
  · next h => exact hQ (by simpa using h)

theorem leaving_validateDeleteAccess_forM {users : List User} {callerOrganization : Uuid} {Q : Unit → UserTables → Prop}
    (hQ : (∀ u ∈ users, u.base.organizationId = callerOrganization) → Q () s) :
    Leaving organizationId Q (users.forM fun user => validateDeleteAccess user callerOrganization) s := by
  induction users with
  | nil => exact hQ fun _ hu => (by cases hu)
  | cons user users ih =>
    rw [Leaving, List.forM, secures_bind]
    refine leaving_validateDeleteAccess fun huser => ih fun husers => hQ ?_
    rw [List.forall_mem_cons]
    exact ⟨huser, husers⟩

end Rules

/-- A deletion of users next to whom there is an owner. -/
theorem leaving_deleteUsers {Q : Nat → UserTables → Prop} (hQ : ∀ n t, Q n t)
    (h : HasOwnerBeside organizationId ids s) :
    Leaving organizationId Q (Process.statement (.delete ids) (deleteUsers ids)) s := by
  refine secures_statement.mpr fun t ht => ⟨.inr (h.steady ht), ?_⟩
  refine (Program.wp_after (P := fun _ => True).mpr trivial).mono (fun n t _ => hQ n t) fun _ _ _ => trivial

/-- What is done with the user is done to a user of the caller's organization. -/
theorem leaving_deleteHandler {callerOrganization : Uuid} (h : HasOwner organizationId s)
    (hother : callerOrganization = organizationId → HasOwnerBeside organizationId [id] s) :
    Leaving organizationId (fun _ _ => True) (deleteHandler callerOrganization id) s := by
  rw [Leaving, deleteHandler, secures_bind]
  refine leaving_getById (fun _ _ _ => trivial) fun t user ht hget => ?_
  obtain ⟨huser, hid⟩ := Table.get_eq_some.mp hget
  dsimp only
  rw [secures_bind]
  refine leaving_validateDeleteAccess fun horganization => ?_
  rw [delete, secures_bind]
  have hbeside : HasOwnerBeside organizationId [id] t := by
    by_cases hsame : callerOrganization = organizationId
    · exact (hother hsame).steady ht
    · -- the owner is in another organization than the user
      refine (h.steady ht).beside fun u hu hmem heq => hsame ?_
      obtain rfl := t.accounts.users.eq_of_key hu huser ((List.mem_singleton.mp hmem).trans hid.symm)
      exact horganization.symm.trans heq
  refine leaving_getById (fun _ _ _ => trivial) fun u _ hu _ => ?_
  dsimp only
  rw [secures_bind]
  exact leaving_deleteUsers (fun _ _ => trivial) (hbeside.steady hu)

theorem leaving_deleteUser (h : HasOwner organizationId s) :
    Leaving organizationId (fun _ _ => True) (deleteUser entity id) s := by
  rw [Leaving, deleteUser, secures_bind]
  refine leaving_caller fun c => ?_
  rw [secures_bind]
  refine leaving_getById (fun _ _ _ => trivial) fun t user ht hget => ?_
  obtain ⟨huser, hid⟩ := Table.get_eq_some.mp hget
  dsimp only
  split
  · trivial
  rw [secures_bind, getOrganizationOwners]
  refine leaving_getAll fun t' ht' => ?_
  split
  · trivial
  next hlast =>
  refine leaving_deleteHandler ((h.steady ht).steady ht') fun horganization => ?_
  subst horganization
  by_contra hnone
  -- every owner is the user, so the user is one, and the only one
  have honly : ∀ u ∈ t'.accounts.users.rows, isOwnerOf c.1 u = true → u = user := by
    intro u hu howner
    have hstored : u ∈ t.accounts.users.rows := (ht'.owners u howner).mpr hu
    refine t.accounts.users.eq_of_key hstored huser (Eq.trans ?_ hid.symm)
    by_contra hne
    exact hnone ⟨u, hu, howner, fun hmem => hne (List.mem_singleton.mp hmem)⟩
  obtain ⟨u, hu, howner⟩ := (h.steady ht).steady ht'
  obtain rfl := honly u hu howner
  refine hlast ⟨(isOwnerOf_iff.mp howner).2, ?_⟩
  rw [List.length_map]
  exact Table.length_select_of_only hu howner honly

theorem leaving_deleteMany (h : HasOwnerBeside organizationId ids s) :
    Leaving organizationId (fun _ _ => True) (deleteMany ids) s := by
  unfold deleteMany
  split
  · trivial
  rw [Leaving, secures_bind]
  refine (Process.secures_forM (I := HasOwnerBeside organizationId ids) (fun id _ t ht => ?_) h).mono
    (fun _ t ht => leaving_deleteUsers (fun _ _ => trivial) ht) fun _ _ ht => ht
  rw [secures_bind]
  exact leaving_getById (fun _ hu _ => ht.steady hu) fun _ _ hu _ => ht.steady hu

theorem leaving_bulkDeleteHandler {callerOrganization : Uuid} (h : HasOwner organizationId s)
    (hother : callerOrganization = organizationId → HasOwnerBeside organizationId ids s) :
    Leaving organizationId (fun _ _ => True) (bulkDeleteHandler callerOrganization ids) s := by
  unfold bulkDeleteHandler
  split
  · trivial
  rw [Leaving, secures_bind]
  refine leaving_getAll fun t ht => ?_
  rw [secures_bind]
  refine leaving_validateDeleteAccess_forM fun horganization => ?_
  rw [secures_bind]
  refine (leaving_deleteMany ?_).mono (fun _ _ _ => trivial) fun _ _ _ => trivial
  have hnamed : ∀ i, i ∈ ((t.accounts.users.select (fun u => ids.contains u.id) User.createdAt).map User.read).map
      User.id → ∃ v ∈ t.accounts.users.rows, v.id ∈ ids ∧ v.base.organizationId = callerOrganization ∧ v.id = i := by
    intro i hi
    simp only [List.map_map, List.mem_map, Table.mem_select, Function.comp_apply, User.read_id,
      List.contains_iff_mem] at hi
    obtain ⟨v, ⟨hv, hid⟩, rfl⟩ := hi
    have hread := horganization v.read (List.mem_map_of_mem (Table.mem_select.mpr ⟨hv, by simpa using hid⟩))
    exact ⟨v, hv, hid, hread, rfl⟩
  by_cases hsame : callerOrganization = organizationId
  · obtain ⟨u, hu, howner, hid⟩ := (hother hsame).steady ht
    refine ⟨u, hu, howner, fun hmem => ?_⟩
    obtain ⟨v, -, hv, -, heq⟩ := hnamed _ hmem
    exact hid (heq ▸ hv)
  · refine (h.steady ht).beside fun u hu hmem heq => hsame ?_
    obtain ⟨v, hv, -, hcaller, hid⟩ := hnamed _ hmem
    obtain rfl := t.accounts.users.eq_of_key hv hu hid
    exact hcaller.symm.trans heq

theorem leaving_bulkDeleteUsers (h : HasOwner organizationId s) :
    Leaving organizationId (fun _ _ => True) (bulkDeleteUsers entity ids) s := by
  rw [Leaving, bulkDeleteUsers, secures_bind]
  refine leaving_caller fun c => ?_
  rw [secures_bind]
  refine leaving_getAll fun t ht => ?_
  split
  · trivial
  rw [secures_bind, getOrganizationOwners]
  refine leaving_getAll fun t' ht' => ?_
  split
  · trivial
  next hsome =>
  refine leaving_bulkDeleteHandler ((h.steady ht).steady ht') fun horganization => ?_
  subst horganization
  simp only [List.all_eq_true, List.contains_iff_mem, not_forall, List.mem_map, Table.mem_select] at hsome
  obtain ⟨_, ⟨u, ⟨hu, howner⟩, rfl⟩, hnot⟩ := hsome
  exact ⟨u, hu, howner, fun hid => hnot ⟨u, ⟨(ht'.owners u howner).mpr hu, hid⟩, rfl⟩⟩

/-- An admin only updates users below the admin, and no one is above an owner. -/
theorem leaving_adminUpdateUser {body : User} (h : HasOwner organizationId s) :
    Leaving organizationId (fun _ _ => True) (adminUpdateUser entity id body) s := by
  rw [Leaving, adminUpdateUser, secures_bind]
  refine leaving_authorized ?_
  split
  case h_2 => trivial
  next adminUserId adminPermissions _ _ =>
  rw [secures_bind]
  refine leaving_getById (fun _ _ _ => trivial) fun t existing ht hget => ?_
  obtain ⟨hexisting, hid⟩ := Table.get_eq_some.mp hget
  dsimp only
  split
  · trivial
  next hallowed =>
  have hnoOwner : isOwnerOf organizationId existing ≠ true := by
    intro howner
    simp only [UserHandlers.adminUpdateDenied, Bool.or_eq_true, decide_eq_true_eq, not_or] at hallowed
    refine hallowed.1.1.2 ?_
    rw [User.read, (isOwnerOf_iff.mp howner).2]
    cases adminPermissions <;> decide
  rw [secures_bind, update, secures_bind]
  refine leaving_getById (fun _ _ _ => trivial) fun t₁ _ ht₁ _ => ?_
  refine secures_statement.mpr fun t₂ ht₂ => ⟨?_, ?_⟩
  · by_cases hwritable : Writable t₂.accounts (UserHandlers.written existing body)
    case neg => exact .inl hwritable
    refine .inr (.inr ?_)
    obtain ⟨u, hu, howner⟩ := h.steady ht
    refine ⟨u, (ht₂.owners u howner).mp ((ht₁.owners u howner).mp hu), howner, fun heq => ?_⟩
    -- the row has the address of a user who is no owner, and so the id
    obtain ⟨v, hv, hvid, hemail⟩ := (ht₁.trans ht₂).addresses existing hexisting
    have hbody : body.id = v.id := UserHandlers.id_of_not_violated hv hemail hwritable.1
    obtain rfl := t.accounts.users.eq_of_key hu hexisting (heq.trans (hbody.trans hvid))
    exact hnoOwner howner
  · refine (Program.wp_after (P := fun _ => True).mpr trivial).mono (fun _ _ _ => ?_) fun _ _ _ => trivial
    rw [secures_bind]
    refine secures_statement.mpr fun t₃ _ => ⟨trivial, ?_⟩
    exact (Program.wp_after (P := fun _ => True).mpr trivial).mono (fun _ _ _ => trivial) fun _ _ _ => trivial

end UserProcess

namespace UserRequest

open Process (Secures)
open UserProcess (Effect)
open UserTables (HasOwner Leaves Steady)

variable [EmailRules] {s : UserTables} {organizationId : Uuid}

/-- Every deletion and every update of a request leaves an owner, as long as the others are steady. -/
theorem secures_leaves (r : UserRequest) (h : HasOwner organizationId s) :
    Secures (Steady organizationId) (fun label s t => Leaves organizationId label s ∧ Effect label s t)
      (fun _ _ => True) (fun _ _ => True) r.process s := by
  refine Process.Secures.and_does ?_ r.does_process
  cases r with
  | delete entity id => exact UserProcess.leaving_deleteUser h
  | bulkDelete entity ids =>
    rw [process, Process.secures_bind]
    exact UserProcess.leaving_bulkDeleteUsers h
  | adminUpdate entity id body =>
    rw [process, Process.secures_bind]
    exact UserProcess.leaving_adminUpdateUser h

/-- A request that nothing comes between leaves every organization an owner that had one. -/
theorem hasOwner_alone (r : UserRequest) (h : HasOwner organizationId s) :
    HasOwner organizationId (after r.process.run s) := by
  rw [← Program.wp_after (P := HasOwner organizationId)]
  refine ((r.secures_leaves h).wp_run Steady.refl (fun label s t hs hdone => ?_) h).mono (fun _ _ ht => ht.1)
    fun _ _ ht => ht.1
  exact (UserTables.hasOwner_iff_leaves hs hdone.2).mpr hdone.1

end UserRequest

/-! ## Requests at the same time -/

namespace UserRequest

open UserTables (HasOwner Leaves Steady)

variable [EmailRules]

/-- What happens to the users: a request comes in, or the next statement of one is issued. -/
abbrev Action := Pool.Action UserRequest Empty

def step : Pool UserStatement ApiError UserTables → Action → Option (Pool UserStatement ApiError UserTables) :=
  Pool.step (fun _ r => r.process) fun e _ => e.elim

/-- Every deletion and every update leaves an owner, where no request that has begun sees an owner come or go, or
another user's address change. -/
theorem leaves_of_steady {organizationId : Uuid} {s : UserTables} (h : HasOwner organizationId s) {as : List Action}
    (hok : Along step (Pool.Spares (fun _ r => r.process) (fun e _ => e.elim) (Steady organizationId))
      { state := s } as) :
    Along step (Pool.Meets (Leaves organizationId) fun e _ => e.elim) { state := s } as :=
  Pool.along_meets_of_spares (I := HasOwner organizationId)
    (R := fun label s t => Leaves organizationId label s ∧ UserProcess.Effect label s t)
    Steady.refl Steady.trans (fun _ r _ hs => r.secures_leaves hs)
    (fun _ _ _ hs hdone => (UserTables.hasOwner_iff_leaves hs hdone.2).mpr hdone.1) (fun e => e.elim)
    (fun _ _ _ hdone => hdone.1) (fun e => e.elim) h hok

end UserRequest

section TwoOwners

open UserRequest
open UserTables (HasOwner Leaves)

/-- Every text is an address. -/
private abbrev anyAddress : EmailRules where
  invalid _ := none
  lower email := email

private def owner (id : Uuid) (email : EmailAddress) : User :=
  { id, base := { email, organizationId := 1, permissions := .owner } }

private def asOwner (id : Uuid) : AuthenticatedEntity := .user id 1 .owner [] true

private def twoOwners : UserTables where
  accounts := { organizations := { rows := [{ id := 1 }] },
                users := { rows := [owner 2 "a", owner 3 "b"], nodup := by decide } }

/-- Each owner deletes the other, and both requests count the owners before either deletes. -/
private def eachOther : List UserRequest.Action :=
  [.request (.delete (asOwner 2) 3), .request (.delete (asOwner 3) 2)] ++ List.replicate 4 (.issue 0) ++
    List.replicate 4 (.issue 1) ++ [.issue 0, .issue 1]

end TwoOwners

end Netvisor
