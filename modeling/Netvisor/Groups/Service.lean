/-
Groups, the bindings they are made of, and what `GroupService` does itself: to
create and to update a group with its bindings and tags.

The row of a group, its bindings and its tags are in three tables. The bindings
are replaced in one transaction, and so are the tags; the row is written before.
-/
import Netvisor.Crud.Service
import Netvisor.Storage

namespace Netvisor

open Failing (Planned statement transaction)
open Program (wp)
open Ledger

structure GroupBinding where
  groupId : Uuid
  bindingId : Uuid
  position : Nat
deriving DecidableEq, Repr

/-- A binding is in a group at most once. -/
def GroupBinding.key (x : GroupBinding) : Uuid × Uuid := (x.groupId, x.bindingId)

/-- Hosts and what is on them, and the groups. -/
structure Inventory where
  db : Db := {}
  /-- The rows, without bindings. -/
  groups : Table Group Group.id := {}
  groupBindings : Table GroupBinding GroupBinding.key := {}

namespace Inventory

variable (d : Inventory)

/-- `get_for_group`. -/
def bindingsOfGroup (groupId : Uuid) : List Uuid :=
  (d.groupBindings.select (fun x => x.groupId == groupId) fun x => x.position).map (·.bindingId)

def hydrateGroup (group : Group) : Group := { group with bindingIds := d.bindingsOfGroup group.id }

def insertGroup (group : Group) : EStateM AnyError Inventory Unit := do
  let d ← get
  match d.groups.insert { group with bindingIds := [] } with
  | none => throw { message := "A record with these values already exists (groups_pkey)", validation := true }
  | some groups =>
    if d.db.hasNetwork group.networkId then set { d with groups }
    else throw (missingReference "groups" "groups_network_id_fkey")

def updateGroup (group : Group) : EStateM AnyError Inventory Unit := do
  let d ← get
  if (d.groups.get group.id).isNone then return ()
  else if d.db.hasNetwork group.networkId then
    set { d with groups := d.groups.update { group with bindingIds := [] } }
  else throw (missingReference "groups" "groups_network_id_fkey")

theorem insertGroup_eq_ok {d d' : Inventory} {group : Group} (h : insertGroup group d = .ok () d') :
    ∃ groups, d.groups.insert { group with bindingIds := [] } = some groups ∧ d' = { d with groups } := by
  have hwp : wp (insertGroup group) (fun _ d' => ∃ groups,
    d.groups.insert { group with bindingIds := [] } = some groups ∧
      d' = { d with groups }) (fun _ _ => True) d := by
    simp only [insertGroup, Program.wp_bind, Program.wp_get]
    split
    · trivial
    · next groups hinsert =>
      simp only [Program.wp_ite, Program.wp_set, Program.wp_throw, implies_true, and_true]
      exact fun _ => ⟨groups, hinsert, rfl⟩
  exact (Program.wp_of_ok h).mp hwp

theorem updateGroup_eq_ok {d d' : Inventory} {group : Group} (h : updateGroup group d = .ok () d') :
    (d.groups.get group.id = none ∧ d' = d) ∨
      (d.db.hasNetwork group.networkId = true ∧
        d' = { d with groups := d.groups.update { group with bindingIds := [] } }) := by
  have hwp : wp (updateGroup group) (fun _ d' => (d.groups.get group.id = none ∧ d' = d) ∨
      (d.db.hasNetwork group.networkId = true ∧
        d' = { d with groups := d.groups.update { group with bindingIds := [] } }))
      (fun _ _ => True) d := by
    simp only [updateGroup, Program.wp_bind, Program.wp_get, Program.wp_ite, Program.wp_pure, Program.wp_set,
      Program.wp_throw, implies_true, and_true]
    exact ⟨fun hnone => .inl (Option.isNone_iff_eq_none.mp hnone), fun _ hnetwork => .inr hnetwork⟩
  exact (Program.wp_of_ok h).mp hwp

/-- `DELETE FROM groups`, with the bindings of the groups. -/
def deleteGroups (ids : List Uuid) (d : Inventory) : Inventory :=
  { d with
    groups := d.groups.filter fun g => !ids.contains g.id
    groupBindings := d.groupBindings.filter fun x => !ids.contains x.groupId }

def insertGroupBinding (x : GroupBinding) : EStateM AnyError Inventory Unit := do
  let d ← get
  match d.groupBindings.insert x with
  | none =>
    throw
      { message := "A record with these values already exists (group_bindings_group_id_binding_id_key)", validation :=
        true }
  | some groupBindings =>
    if (d.groups.get x.groupId).isNone then throw (missingReference "group_bindings" "group_bindings_group_id_fkey")
    else if (d.db.bindings.get x.bindingId).isNone then
      throw (missingReference "group_bindings" "group_bindings_binding_id_fkey")
    else set { d with groupBindings }

def deleteGroupBindings (groupId : Uuid) (d : Inventory) : Inventory :=
  { d with groupBindings := d.groupBindings.filter fun x => x.groupId != groupId }

end Inventory

/-- The groups, as the service reads and writes them. -/
def groups : Crud Inventory Group where
  entityType := .group
  tableName := "groups"
  display group := "Group " ++ group.name ++ ": " ++ toString group.id
  id := Group.id
  stamp id now group := { group with id, createdAt := now, updatedAt := now }
  taggable := true
  -- its tags and its bindings
  reads := 2
  find d id := (d.groups.get id).map d.hydrateGroup
  insert := Inventory.insertGroup
  update := Inventory.updateGroup
  delete := Inventory.deleteGroups
  find_insert h := by
    obtain ⟨groups, hinsert, rfl⟩ := Inventory.insertGroup_eq_ok h
    rw [Option.map_eq_none_iff, Option.isSome_map, Table.get_insert hinsert, if_pos rfl]
    exact ⟨Table.get_eq_none.mpr (Table.insert_eq_some hinsert).2, rfl⟩
  find_update h hfound := by
    rw [Option.isSome_map] at hfound ⊢
    obtain ⟨row, hrow⟩ := Option.isSome_iff_exists.mp hfound
    rcases Inventory.updateGroup_eq_ok h with ⟨hnone, -⟩ | ⟨-, rfl⟩
    · rw [hnone] at hrow
      cases hrow
    · rw [Table.get_update, if_pos rfl, hrow]
      rfl
  find_delete {ids d i} hi := by
    rw [Option.map_eq_none_iff, Inventory.deleteGroups, Table.get_filter, Option.filter_eq_none_iff]
    intro group hgroup
    rw [(Table.get_eq_some.mp hgroup).2]
    simpa using hi

namespace GroupBindingStorage

open Inventory

/-- Replace the bindings of a group. -/
def saveForGroup (groupId : Uuid) (bindingIds : List Uuid) : Writes Inventory Unit := do
  -- begin
  statement (pure ())
  transaction do
    statement (onData (modify (deleteGroupBindings groupId)))
    bindingIds.zipIdx.forM fun (bindingId, position) =>
      statement (onData (insertGroupBinding { groupId, bindingId, position }))
    -- commit
    statement (pure ())

end GroupBindingStorage

namespace GroupService

open GroupBindingStorage

def create (group : Group) (tags : List Uuid) (organizationId : Option Uuid) : Writes Inventory Group := do
  let group ← groups.orNew group
  statement (onData (groups.insert group))
  saveForGroup group.id group.bindingIds
  groups.saveTags group (some tags) organizationId
  publish .group group.id .created
  return group

def update (group : Group) (tags : List Uuid) (organizationId : Option Uuid) : Writes Inventory Group := do
  match ← groups.getById group.id with
  | none => throw { message := "Could not find group" }
  | some _ =>
    statement (onData (groups.update group))
    saveForGroup group.id group.bindingIds
    groups.saveTags group (some tags) organizationId
    publish .group group.id .updated
    return group

end GroupService

end Netvisor
