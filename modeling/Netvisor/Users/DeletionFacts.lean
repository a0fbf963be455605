/-
What the statements of the endpoints that delete and update users do to the
users, and that these are all the statements they issue.

A deletion is refused exactly if one of the users maintains a daemon that no
owner is left to take over.
-/
import Netvisor.Users.Deletion
import Netvisor.Users.HandlersFacts

namespace Netvisor

open Process (Does)
open Program (after wp)

namespace UserTables

variable {s : UserTables} {organizationId : Uuid} {ids : List Uuid}

theorem isOwnerOf_iff {u : User} :
    isOwnerOf organizationId u = true ↔ u.base.organizationId = organizationId ∧ u.base.permissions = .owner := by
  simp [isOwnerOf]

/-! ## Deleting rows -/

theorem mem_deleteRow {d u : User} :
    u ∈ (deleteRow s d).accounts.users.rows ↔ u ∈ s.accounts.users.rows ∧ u.id ≠ d.id := by
  simp only [deleteRow, withoutUser, Table.mem_filter, bne_iff_ne]

theorem mem_foldl_deleteRow {deleted : List User} {u : User} :
    u ∈ (deleted.foldl deleteRow s).accounts.users.rows ↔
      u ∈ s.accounts.users.rows ∧ ∀ d ∈ deleted, u.id ≠ d.id := by
  induction deleted generalizing s with
  | nil => simp
  | cons d deleted ih =>
    rw [List.foldl_cons, ih, List.forall_mem_cons, ← and_assoc]
    exact and_congr_left fun _ => mem_deleteRow

theorem mem_named {u : User} : u ∈ s.named ids ↔ u ∈ s.accounts.users.rows ∧ u.id ∈ ids := by
  simp [named]

theorem mem_deleted {u : User} :
    u ∈ ((s.named ids).foldl deleteRow s).accounts.users.rows ↔ u ∈ s.accounts.users.rows ∧ u.id ∉ ids := by
  rw [mem_foldl_deleteRow]
  refine and_congr_right fun hu => ⟨fun h hid => h u (mem_named.mpr ⟨hu, hid⟩) rfl, fun h d hd heq => h ?_⟩
  rw [heq]
  exact (mem_named.mp hd).2

/-! ## The daemons of deleted users -/

/-- A user to be deleted maintains a daemon that no owner is left to take over. -/
def Stranded (s : UserTables) (ids : List Uuid) : Prop :=
  ∃ u ∈ s.named ids, u.id ∈ s.daemonUsers ∧
    ∀ owner ∈ s.accounts.users.rows, isOwnerOf u.base.organizationId owner = true → owner.id ∈ ids

/-- The trigger moves the daemons of a user to another owner, if there is one. -/
theorem reassignDaemons_cases (users : Table User User.id) (old : User) (daemonUsers : List Uuid) :
    (∃ owner ∈ users.rows, isOwnerOf old.base.organizationId owner = true ∧ owner.id ≠ old.id ∧
      reassignDaemons users old daemonUsers = daemonUsers.map fun id => if id = old.id then owner.id else id) ∨
    ((∀ owner ∈ users.rows, isOwnerOf old.base.organizationId owner = true → owner.id = old.id) ∧
      reassignDaemons users old daemonUsers = daemonUsers) := by
  unfold reassignDaemons
  split
  · next owner h =>
    have hmem := Table.mem_select.mp (List.mem_of_head? h)
    simp only [Bool.and_eq_true, bne_iff_ne] at hmem
    exact .inl ⟨owner, hmem.1, hmem.2.1, hmem.2.2, rfl⟩
  · next h =>
    rw [List.head?_eq_none_iff] at h
    refine .inr ⟨fun owner howner hisOwner => ?_, rfl⟩
    by_contra hne
    have hmem : owner ∈ users.select (fun u =>
        isOwnerOf old.base.organizationId u && u.id != old.id) User.createdAt :=
      Table.mem_select.mpr ⟨howner, by simp [hisOwner, hne]⟩
    rw [h] at hmem
    cases hmem

theorem mem_reassignDaemons {users : Table User User.id} {old : User} {daemonUsers : List Uuid} {id : Uuid}
    (h : id ∈ reassignDaemons users old daemonUsers) :
    id ∈ daemonUsers ∨ old.id ∈ daemonUsers ∧ ∃ owner ∈ users.rows,
      isOwnerOf old.base.organizationId owner = true ∧ owner.id ≠ old.id ∧ owner.id = id := by
  rcases reassignDaemons_cases users old daemonUsers with ⟨owner, howner, hisOwner, hne, heq⟩ | ⟨-, heq⟩
  · rw [heq, List.mem_map] at h
    obtain ⟨x, hx, hxid⟩ := h
    split at hxid
    · next hold => exact .inr ⟨hold ▸ hx, owner, howner, hisOwner, hne, hxid⟩
    · exact .inl (hxid ▸ hx)
  · rw [heq] at h
    exact .inl h

/-- The daemons of other users stay where they are. -/
theorem mem_reassignDaemons_of_ne {users : Table User User.id} {old : User} {daemonUsers : List Uuid} {id : Uuid}
    (h : id ∈ daemonUsers) (hne : id ≠ old.id) : id ∈ reassignDaemons users old daemonUsers := by
  rcases reassignDaemons_cases users old daemonUsers with ⟨owner, -, -, -, heq⟩ | ⟨-, heq⟩
  · rw [heq, List.mem_map]
    exact ⟨id, h, if_neg hne⟩
  · rw [heq]
    exact h

/-- No daemon comes to refer to a user who is gone. -/
theorem not_mem_of_gone {deleted : List User} {id : Uuid} (hdaemons : id ∉ s.daemonUsers)
    (husers : ∀ u ∈ s.accounts.users.rows, u.id ≠ id) : id ∉ (deleted.foldl deleteRow s).daemonUsers := by
  induction deleted generalizing s with
  | nil => exact hdaemons
  | cons d deleted ih =>
    refine ih (fun h => ?_) fun u hu => husers u (mem_deleteRow.mp hu).1
    rcases mem_reassignDaemons h with h | ⟨-, owner, howner, -, -, hid⟩
    · exact hdaemons h
    · exact husers owner howner hid

/-- With an owner left for them, no daemon stays with a deleted user. -/
theorem not_mem_daemonUsers {deleted : List User} (hnodup : (deleted.map User.id).Nodup)
    (hstored : ∀ u ∈ deleted, u ∈ s.accounts.users.rows)
    (hleft : ∀ u ∈ deleted, u.id ∈ s.daemonUsers → ∃ owner ∈ s.accounts.users.rows,
      isOwnerOf u.base.organizationId owner = true ∧ ∀ d ∈ deleted, owner.id ≠ d.id) :
    ∀ u ∈ deleted, u.id ∉ (deleted.foldl deleteRow s).daemonUsers := by
  induction deleted generalizing s with
  | nil => intro u hu; cases hu
  | cons d deleted ih =>
    obtain ⟨hd, hnodup⟩ := List.nodup_cons.mp hnodup
    have hne : ∀ u ∈ deleted, u.id ≠ d.id := fun u hu heq => hd (heq ▸ List.mem_map_of_mem hu)
    have hkept : ∀ owner ∈ s.accounts.users.rows, owner.id ≠ d.id → owner ∈ (deleteRow s d).accounts.users.rows :=
      fun owner howner hid => mem_deleteRow.mpr ⟨howner, hid⟩
    rw [List.forall_mem_cons]
    constructor
    · show d.id ∉ (deleted.foldl deleteRow (deleteRow s d)).daemonUsers
      refine not_mem_of_gone (fun h => ?_) fun u hu => (mem_deleteRow.mp hu).2
      rcases reassignDaemons_cases s.accounts.users d s.daemonUsers with ⟨owner, -, -, howner, heq⟩ | ⟨hnone, heq⟩
      · have hmem : d.id ∈ s.daemonUsers.map fun id => if id = d.id then owner.id else id := heq ▸ h
        obtain ⟨id, -, hid⟩ := List.mem_map.mp hmem
        split at hid
        · exact howner hid
        · next hid' => exact hid' hid
      · have hmem : d.id ∈ s.daemonUsers := heq ▸ h
        obtain ⟨owner, howner, hisOwner, hother⟩ := hleft d List.mem_cons_self hmem
        exact hother d List.mem_cons_self (hnone owner howner hisOwner)
    · refine ih hnodup (fun u hu => hkept u (hstored u (List.mem_cons_of_mem _ hu)) (hne u hu)) fun u hu hmem => ?_
      have hfrom : ∃ v ∈ d :: deleted, v.id ∈ s.daemonUsers ∧ v.base.organizationId = u.base.organizationId := by
        rcases mem_reassignDaemons hmem with hmem | ⟨hd, owner, howner, hisOwner, -, hid⟩
        · exact ⟨u, List.mem_cons_of_mem _ hu, hmem, rfl⟩
        · have heq : owner = u := s.accounts.users.eq_of_key howner (hstored u (List.mem_cons_of_mem _ hu)) hid
          exact ⟨d, List.mem_cons_self, hd, heq ▸ (isOwnerOf_iff.mp hisOwner).1.symm⟩
      obtain ⟨v, hv, hvmem, horganization⟩ := hfrom
      obtain ⟨owner, howner, hisOwner, hother⟩ := hleft v hv hvmem
      rw [List.forall_mem_cons] at hother
      exact ⟨owner, hkept owner howner hother.1, horganization ▸ hisOwner, hother.2⟩

/-- Without one, the daemons go from one deleted user to another and stay with the last. -/
theorem exists_mem_daemonUsers {all deleted : List User} {organizationId : Uuid}
    (hunique : ∀ d ∈ deleted, ∀ u ∈ all, u.id = d.id → u = d)
    (hall : ∀ owner ∈ s.accounts.users.rows, isOwnerOf organizationId owner = true → owner ∈ all)
    (h : ∃ u ∈ all, u.base.organizationId = organizationId ∧ u.id ∈ s.daemonUsers) :
    ∃ u ∈ all, u.id ∈ (deleted.foldl deleteRow s).daemonUsers := by
  induction deleted generalizing s with
  | nil =>
    obtain ⟨u, hu, -, hmem⟩ := h
    exact ⟨u, hu, hmem⟩
  | cons d deleted ih =>
    rw [List.forall_mem_cons] at hunique
    refine ih hunique.2 (fun owner howner => hall owner (mem_deleteRow.mp howner).1) ?_
    obtain ⟨u, hu, horganization, hmem⟩ := h
    by_cases hid : u.id = d.id
    · obtain rfl := hunique.1 u hu hid
      rcases reassignDaemons_cases s.accounts.users u s.daemonUsers with ⟨owner, howner, hisOwner, -, heq⟩ | ⟨-, heq⟩
      · rw [horganization] at hisOwner
        refine ⟨owner, hall owner howner hisOwner, (isOwnerOf_iff.mp hisOwner).1, ?_⟩
        simp only [deleteRow, heq, List.mem_map]
        exact ⟨u.id, hmem, if_pos rfl⟩
      · exact ⟨u, hu, horganization, by simpa only [deleteRow, heq] using hmem⟩
    · exact ⟨u, hu, horganization, mem_reassignDaemons_of_ne hmem hid⟩

theorem refused_iff :
    ((s.named ids).any fun u => ((s.named ids).foldl deleteRow s).daemonUsers.contains u.id) = true ↔
    s.Stranded ids := by
  simp only [List.any_eq_true, List.contains_iff_mem]
  constructor
  · rintro ⟨u, hu, hmem⟩
    by_contra hstranded
    refine not_mem_daemonUsers ((s.accounts.users.filter _).nodup) (fun u hu => (mem_named.mp hu).1)
      (fun v hv hvmem => ?_)
      u hu hmem
    by_contra hnone
    refine hstranded ⟨v, hv, hvmem, fun owner howner hisOwner => ?_⟩
    by_contra hid
    exact hnone ⟨owner, howner, hisOwner, fun d hd heq => hid (heq ▸ (mem_named.mp hd).2)⟩
  · rintro ⟨u, hu, hmem, hall⟩
    refine exists_mem_daemonUsers (fun d hd v hv heq => ?_) (fun owner howner hisOwner => ?_) ⟨u, hu, rfl, hmem⟩
    · exact s.accounts.users.eq_of_key (mem_named.mp hv).1 (mem_named.mp hd).1 heq
    · exact mem_named.mpr ⟨howner, hall owner howner hisOwner⟩

/-- A `DELETE` is refused and changes nothing, or deletes the users with the ids. -/
theorem mem_after_deleteUsers {u : User} : u ∈ (after (deleteUsers ids) s).accounts.users.rows ↔
    u ∈ s.accounts.users.rows ∧ (s.Stranded ids ∨ u.id ∉ ids) := by
  refine (Program.wp_after (P := fun t : UserTables => u ∈ t.accounts.users.rows ↔ _)).mp ?_
  simp only [deleteUsers, Program.wp_bind, Program.wp_get, Program.wp_ite, Program.wp_throw, Program.wp_set,
    Program.wp_pure, refused_iff]
  refine ⟨fun hstranded => ?_, fun hstranded => ?_⟩
  · simp only [hstranded, true_or, and_true]
  · simp only [hstranded, false_or, mem_deleted]

theorem onAccounts_bind {α β : Type} (p : AccountStore α) (f : α → AccountStore β) :
    onAccounts (p >>= f) = onAccounts p >>= fun a => onAccounts (f a) := by
  funext s
  simp only [onAccounts, bind, EStateM.bind]
  cases p s.accounts <;> rfl

@[simp] theorem wp_onAccounts {α : Type} {p : AccountStore α} {Q : α → UserTables → Prop}
    {E : ApiError → UserTables → Prop} :
    wp (onAccounts p) Q E s ↔
      wp p (fun a accounts => Q a { s with accounts }) (fun e accounts => E e { s with accounts }) s.accounts := by
  simp only [wp, onAccounts]
  cases p s.accounts <;> exact Iff.rfl

end UserTables

/-! ## The statements of a request -/

namespace UserProcess

open UserHandlers (Writable)
open UserTables (deleteUsers onAccounts onAccounts_bind wp_onAccounts)

/-- What a statement does to the users. -/
def Effect [EmailRules] : UserStatement → UserTables → UserTables → Prop
  | .query, s, t => t = s
  | .delete ids, s, t => t = after (deleteUsers ids) s
  | .update user, s, t =>
    t.accounts.users = if Writable s.accounts user then s.accounts.users.update user else s.accounts.users
  | .setNetworkIds, s, t => t.accounts.users = s.accounts.users

variable [EmailRules]

theorem does_authorized {p : PermissionRequirement} {entity : AuthenticatedEntity} :
    Does Effect (authorized p entity) := by
  unfold authorized
  split <;> trivial

theorem does_getById {id : Uuid} : Does Effect (getById id) := by
  refine Process.does_statement fun s => ?_
  refine (Program.wp_after (P := fun t => t = s)).mp ?_
  rw [wp_onAccounts, wp_internally, UserService.wp_getById]
  exact ⟨fun _ => rfl, fun _ _ => ⟨fun _ => rfl, fun _ _ => rfl⟩⟩

theorem does_getAll {p : User → Bool} : Does Effect (getAll p) := by
  refine Process.does_statement fun s => ?_
  refine (Program.wp_after (P := fun t => t = s)).mp ?_
  simp only [wp_onAccounts, wp_internally]
  exact UserService.wp_getAll (fun _ => rfl) fun _ => rfl

theorem does_validateDeleteAccess {user : User} {organizationId : Uuid} :
    Does Effect (validateDeleteAccess user organizationId) := by
  unfold validateDeleteAccess
  split <;> trivial

theorem does_deleteUsers {ids : List Uuid} : Does Effect (Process.statement (.delete ids) (deleteUsers ids)) :=
  Process.does_statement fun _ => rfl

theorem does_caller {entity : AuthenticatedEntity} : Does Effect (caller entity) := by
  refine does_authorized.bind fun _ => ?_
  split <;> trivial

theorem does_delete {id : Uuid} : Does Effect (delete id) := by
  refine does_getById.bind fun user => ?_
  cases user with
  | none => trivial
  | some user => exact does_deleteUsers.bind fun _ => trivial

theorem does_deleteHandler {organizationId id : Uuid} : Does Effect (deleteHandler organizationId id) := by
  refine does_getById.bind fun user => ?_
  cases user with
  | none => trivial
  | some user => exact does_validateDeleteAccess.bind fun _ => does_delete

theorem does_deleteUser {entity : AuthenticatedEntity} {id : Uuid} : Does Effect (deleteUser entity id) := by
  refine does_caller.bind fun c => does_getById.bind fun user => ?_
  cases user with
  | none => trivial
  | some user =>
    dsimp only
    split
    · trivial
    · refine does_getAll.bind fun owners => ?_
      split
      · trivial
      · exact does_deleteHandler

theorem does_deleteMany {ids : List Uuid} : Does Effect (deleteMany ids) := by
  unfold deleteMany
  split
  · trivial
  · refine Process.Does.bind (Process.Does.forM (fun id => ?_) ids) fun _ => does_deleteUsers
    exact does_getById.bind fun _ => trivial

theorem does_bulkDeleteHandler {organizationId : Uuid} {ids : List Uuid} :
    Does Effect (bulkDeleteHandler organizationId ids) := by
  unfold bulkDeleteHandler
  split
  · trivial
  · refine does_getAll.bind fun entities => ?_
    exact (Process.Does.forM (fun _ => does_validateDeleteAccess) entities).bind fun _ =>
      does_deleteMany.bind fun _ => trivial

theorem does_bulkDeleteUsers {entity : AuthenticatedEntity} {ids : List Uuid} :
    Does Effect (bulkDeleteUsers entity ids) := by
  refine does_caller.bind fun c => does_getAll.bind fun users => ?_
  split
  · trivial
  · refine does_getAll.bind fun owners => ?_
    split
    · trivial
    · exact does_bulkDeleteHandler

theorem does_store {user : User} :
    Does Effect (Process.statement (.update user.row) (onAccounts (internally (UserService.store user)))) := by
  refine Process.does_statement fun s => ?_
  refine (Program.wp_after (P := Effect (.update user.row) s)).mp ?_
  simp only [wp_onAccounts, wp_internally, UserService.store, Program.wp_bind, Program.wp_get, wp_runStatement,
    Program.wp_set, Program.wp_pure, Effect]
  constructor
  · intro users hupdate
    rcases updateIn_eq_ok hupdate with ⟨hmissing, rfl⟩ | ⟨hviolated, href, rfl⟩
    · split
      · exact (Table.update_missing hmissing).symm
      · rfl
    · exact (if_pos ⟨hviolated, href⟩).symm
  · intro e herror
    by_cases hmissing : s.accounts.users.get user.row.id = none
    · rw [Table.update_missing hmissing, ite_self]
    · refine (if_neg fun hwritable => ?_).symm
      have hok : updateIn "users" s.accounts.users UserService.uniques _ user.row = .ok _ :=
        updateIn_of (Option.isSome_iff_ne_none.mpr hmissing) hwritable.1 hwritable.2
      cases hok.symm.trans herror

theorem does_setNetworkIds {id : Uuid} {networkIds : List Uuid} :
    Does Effect (Process.statement .setNetworkIds
        (onAccounts (internally (UserService.setNetworkIds id networkIds)))) := by
  refine Process.does_statement fun s => ?_
  refine (Program.wp_after (P := Effect .setNetworkIds s)).mp ?_
  simp only [wp_onAccounts, wp_internally, UserService.setNetworkIds, Program.wp_bind, Program.wp_get,
    wp_runStatement, Program.wp_set]
  exact ⟨fun _ _ => rfl, fun _ _ => rfl⟩

theorem does_update {user : User} : Does Effect (update user) := by
  refine does_getById.bind fun stored => ?_
  cases stored with
  | none => trivial
  | some stored => exact does_store

theorem does_adminUpdateUser {entity : AuthenticatedEntity} {id : Uuid} {body : User} :
    Does Effect (adminUpdateUser entity id body) := by
  refine does_authorized.bind fun _ => ?_
  split
  · refine does_getById.bind fun existing => ?_
    cases existing with
    | none => trivial
    | some existing =>
      dsimp only
      split
      · trivial
      · exact does_update.bind fun _ => does_setNetworkIds.bind fun _ => trivial
  · trivial

/-! ### A request alone -/

theorem run_update {user : User} :
    (update user).run = onAccounts (internally (UserService.update user)) := by
  rw [update, UserService.update, internally_bind, onAccounts_bind, Process.run_bind, getById, Process.run_statement]
  refine congrArg _ (funext fun stored => ?_)
  cases stored with
  | none => rfl
  | some stored => exact Process.run_statement _ _

/-- The statements of an update, one after the other, are the update. -/
theorem run_adminUpdateUser {entity : AuthenticatedEntity} {id : Uuid} {body : User} :
    (adminUpdateUser entity id body).run = onAccounts (UserHandlers.adminUpdateUser entity id body) := by
  rw [adminUpdateUser, UserHandlers.adminUpdateUser, onAccounts_bind, Process.run_bind]
  refine congrArg₂ _ ?_ (funext fun _ => ?_)
  · unfold authorized authorize
    cases PermissionRequirement.admin.authorized entity <;> rfl
  cases entity.userId with
  | none => rfl
  | some adminUserId =>
  cases entity.permissions with
  | none => rfl
  | some adminPermissions =>
  dsimp only
  rw [onAccounts_bind, Process.run_bind, getById, Process.run_statement]
  refine congrArg _ (funext fun existing => ?_)
  cases existing with
  | none => rfl
  | some existing =>
    dsimp only
    split
    · rfl
    · rw [onAccounts_bind, Process.run_bind, run_update]
      refine congrArg _ (funext fun updated => ?_)
      rw [onAccounts_bind, Process.run_bind, Process.run_statement]
      rfl

end UserProcess

theorem UserRequest.does_process [EmailRules] : ∀ r : UserRequest, Does UserProcess.Effect r.process
  | .delete _ _ => UserProcess.does_deleteUser
  | .bulkDelete _ _ => UserProcess.does_bulkDeleteUsers.bind fun _ => trivial
  | .adminUpdate _ _ _ => UserProcess.does_adminUpdateUser.bind fun _ => trivial

end Netvisor
