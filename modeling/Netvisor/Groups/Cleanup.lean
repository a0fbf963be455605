/-
The groups of a network while services lose bindings: `ServiceService::update`
and `delete`, which take the bindings that are to go out of the groups first,
and the requests of users for the same groups.

Statements are issued one at a time, a transaction being one of them. The locks
of services and of the cleanups are left out, so that what they exclude is
among the runs. Beside the store the state has what the groups are to be: a
statement of a user makes them what it leaves, and a removed binding is gone.
-/
import Mathlib.Data.Finset.Dedup
import Netvisor.Crud.Truth
import Netvisor.Groups.Service
import Netvisor.Lib.Pool
import Netvisor.Tags.Setting

namespace Netvisor

open Program (wp after)
open Transition (Visits Along)
open EntityTagStorage (getForEntity)
open Ledger (onData onTags)

namespace GroupCleanup

/-- Who a statement about a group is from. -/
inductive Author
  | user
  /-- A service that is to be without bindings. -/
  | cleanup (removed : List Uuid)
deriving DecidableEq

/-- What is stored of a group. -/
structure GroupView where
  row : Option Group
  bindingIds : List Uuid
  tags : Finset Uuid
deriving DecidableEq

structure State where
  ledger : Ledger Inventory
  /-- What the groups are to be. -/
  wanted : Uuid → GroupView

namespace State

variable (s : State)

def view (id : Uuid) : GroupView where
  row := s.ledger.data.groups.get id
  bindingIds := s.ledger.data.bindingsOfGroup id
  tags := (getForEntity id .group s.ledger.tagging).toFinset

/-- Change what a group is to be. -/
def want (id : Uuid) (f : GroupView → GroupView) : State :=
  { s with wanted := fun i => if i = id then f (s.wanted i) else s.wanted i }

def noteRow (author : Author) (id : Uuid) : State :=
  match author with
  | .user => s.want id fun wanted => { wanted with row := (s.view id).row }
  | .cleanup _ => s

def noteBindings (author : Author) (id : Uuid) : State :=
  match author with
  | .user => s.want id fun wanted => { wanted with bindingIds := (s.view id).bindingIds }
  | .cleanup removed =>
    s.want id fun wanted => { wanted with bindingIds := wanted.bindingIds.filter fun b => !removed.contains b }

def noteTags (author : Author) (id : Uuid) : State :=
  match author with
  | .user => s.want id fun wanted => { wanted with tags := (s.view id).tags }
  | .cleanup _ => s

/-- Another content of the tables about hosts. A binding that is gone is deleted from all groups with it. -/
def onHosts (db : Db) : State where
  ledger := { s.ledger with
    data.db := db
    data.groupBindings := s.ledger.data.groupBindings.filter fun x => (db.bindings.get x.bindingId).isSome }
  wanted id := { s.wanted id with bindingIds := (s.wanted id).bindingIds.filter fun b => (db.bindings.get b).isSome }

end State

/-! ## Statements -/

/-- A statement that writes groups, or tags. -/
inductive Write
  | insertRow (group : Group)
  | updateRow (author : Author) (group : Group)
  | saveForGroup (author : Author) (groupId : Uuid) (bindingIds : List Uuid)
  | deleteRow (groupId : Uuid)
  | setTags (author : Author) (entityType : EntityDiscriminants) (entityId : Uuid) (tagIds : List Uuid)
  | removeTags (entityType : EntityDiscriminants) (entityId : Uuid)

namespace Write

def run : Write → EStateM AnyError (Ledger Inventory) Unit
  | insertRow group => onData (groups.insert group)
  | updateRow _ group => onData (groups.update group)
  | saveForGroup _ groupId bindingIds => Failing.calm (GroupBindingStorage.saveForGroup groupId bindingIds)
  | deleteRow groupId => onData (modify (groups.delete [groupId]))
  | setTags _ entityType entityId tagIds =>
    Failing.calm (onTags (EntityTagService.inContext "Failed to set tags"
      (EntityTagStorage.set entityId entityType tagIds)))
  | removeTags entityType entityId => Failing.calm (onTags (EntityTagStorage.removeAllForEntity entityId entityType))

/-- What the groups are to be after it. -/
def note : Write → State → State
  | insertRow group, s => s.noteRow .user group.id
  | updateRow author group, s => s.noteRow author group.id
  | saveForGroup author groupId _, s => s.noteBindings author groupId
  | deleteRow groupId, s => (s.noteRow .user groupId).noteBindings .user groupId
  | setTags author .group entityId _, s => s.noteTags author entityId
  | removeTags .group entityId, s => s.noteTags .user entityId
  | setTags .., s | removeTags .., s => s

/-- A statement that fails writes nothing. -/
def statement (w : Write) : EStateM AnyError State Unit := fun s =>
  match w.run s.ledger with
  | .ok _ ledger => .ok () (w.note { s with ledger })
  | .error e _ => .error e s

end Write

inductive Label
  | read
  /-- About hosts and what is on them. -/
  | hosts
  | write (w : Write)

abbrev Steps := Process Label AnyError State

open Process (query)

def write (w : Write) : Steps Unit := Process.statement (.write w) w.statement

def hosts {α : Type} (p : HostUpdate.Steps α) : Steps α :=
  p.within (fun _ => Label.hosts) Error.toAny (fun s => s.ledger.data.db) fun db s => s.onHosts db

/-! ## The services -/

def validateTag (organizationId tagId : Uuid) : Steps Unit := do
  match ← query .read fun s => s.ledger.tagging.tags.get tagId with
  | none => .fail { message := "Tag " ++ toString tagId ++ " not found" }
  | some tag =>
    if tag.organizationId != organizationId then
      .fail { message := "Tag " ++ toString tagId ++ " does not belong to this organization" }
    else return ()

/-- The tags in the call become those of the entity; without an organization, and without tags, nothing is done. -/
def setTags (author : Author) (entityType : EntityDiscriminants) (entityId : Uuid) (tagIds : List Uuid)
    (organizationId : Option Uuid) : Steps Unit :=
  match organizationId with
  | none => return ()
  | some organizationId =>
    if tagIds.isEmpty then return ()
    else do
      tagIds.forM (validateTag organizationId)
      write (.setTags author entityType entityId tagIds)

namespace GroupService

def getById (id : Uuid) : Steps (Option (Group × List Uuid)) := do
  match ← query .read fun s => s.ledger.data.groups.get id with
  | none => return none
  | some group =>
    let tags ← query .read fun s => getForEntity id .group s.ledger.tagging
    let bindingIds ← query .read fun s => s.ledger.data.bindingsOfGroup id
    return some ({ group with bindingIds }, tags)

/-- The groups of a network, with their tags. -/
def getAll (networkId : Uuid) : Steps (List (Group × List Uuid)) := do
  let rows ← query .read fun s => s.ledger.data.groups.select (fun group => group.networkId == networkId)
    (·.createdAt)
  if rows.isEmpty then return []
  else
    let bindings ← query .read fun s => rows.map fun group => s.ledger.data.bindingsOfGroup group.id
    let tags ← query .read fun s => rows.map fun group => getForEntity group.id .group s.ledger.tagging
    return ((rows.zip bindings).map fun (group, bindingIds) => { group with bindingIds }).zip tags

def create (group : Group) (tags : List Uuid) (organizationId : Option Uuid) : Steps Unit := do
  write (.insertRow group)
  write (.saveForGroup .user group.id group.bindingIds)
  setTags .user .group group.id tags organizationId

def update (author : Author) (group : Group) (tags : List Uuid) (organizationId : Option Uuid) : Steps Unit := do
  match ← getById group.id with
  | none => .fail { message := "Could not find group" }
  | some _ =>
    write (.updateRow author group)
    write (.saveForGroup author group.id group.bindingIds)
    setTags author .group group.id tags organizationId

def delete (id : Uuid) : Steps Unit := do
  match ← getById id with
  | none => .fail { message := "groups with id " ++ toString id ++ " not found" }
  | some _ =>
    write (.deleteRow id)
    write (.removeTags .group id)

end GroupService

namespace ServiceService

/-- The bindings of a group that it keeps. -/
def retain (currentServiceBindingIds updatedServiceBindingIds : List Uuid) (bindingIds : List Uuid) : List Uuid :=
  bindingIds.filter fun sb =>
    if currentServiceBindingIds.contains sb then updatedServiceBindingIds.contains sb else true

/-- The group without the bindings that it is not to keep, if it has any. -/
def groupToUpdate (currentServiceBindingIds updatedServiceBindingIds : List Uuid) (group : Group) : Option Group :=
  let bindingIds := retain currentServiceBindingIds updatedServiceBindingIds group.bindingIds
  if bindingIds.length != group.bindingIds.length then some { group with bindingIds } else none

def updateGroupServiceBindings (currentService : Service) (updates : Option Service) (organizationId : Option Uuid) :
    Steps Unit := do
  let groups ← GroupService.getAll currentService.base.networkId
  let currentServiceBindingIds := currentService.base.bindings.map (·.id)
  let updatedServiceBindingIds := match updates with
    | some updatedService => updatedService.base.bindings.map (·.id)
    | none => []
  let removed := currentServiceBindingIds.filter fun b => !updatedServiceBindingIds.contains b
  let groupsToUpdate := groups.filterMap fun (group, tags) =>
    (groupToUpdate currentServiceBindingIds updatedServiceBindingIds group).map fun group => (group, tags)
  groupsToUpdate.forM fun (group, tags) => GroupService.update (.cleanup removed) group tags organizationId

open HostUpdate (Phase)

def update (service : Service) (tags : List Uuid) (organizationId : Option Uuid) : Steps Unit := do
  match ← hosts (HostUpdate.getService .services service.id) with
  | none => .fail { message := "Could not find service" }
  | some currentService =>
    let service := Netvisor.ServiceService.deduplicated service
    hosts do
      HostUpdate.validate (Netvisor.ServiceService.validateBindingsNoConflicts [] service.base.bindings)
      HostUpdate.validateBindingsBelongToHost .services service.base.hostId service.base.bindings
      HostUpdate.validateBindingsAvailable .services service.base.hostId service.id service.base.bindings
    updateGroupServiceBindings currentService (some service) organizationId
    hosts do
      let updated ← Process.statement .services (Storable.update service)
      let _ ← HostUpdate.saveBindings .services updated
    setTags (.cleanup []) .service service.id tags organizationId

def delete (id : Uuid) (organizationId : Option Uuid) : Steps Unit := do
  match ← hosts (HostUpdate.getService .services id) with
  | none => .fail { message := "Service " ++ toString id ++ " not found" }
  | some service =>
    updateGroupServiceBindings service none organizationId
    write (.removeTags .service id)
    hosts (Process.statement .services (modify fun db => db.deleteServices [id]))

end ServiceService

/-! ## Runs -/

inductive Request
  | updateService (service : Service) (tags : List Uuid) (organizationId : Option Uuid)
  | deleteService (id : Uuid) (organizationId : Option Uuid)
  | createGroup (group : Group) (tags : List Uuid) (organizationId : Option Uuid)
  | updateGroup (group : Group) (tags : List Uuid) (organizationId : Option Uuid)
  | deleteGroup (id : Uuid)

def start : Request → Steps Unit
  | .updateService service tags organizationId => ServiceService.update service tags organizationId
  | .deleteService id organizationId => ServiceService.delete id organizationId
  | .createGroup group tags organizationId => GroupService.create group tags organizationId
  | .updateGroup group tags organizationId => GroupService.update .user group tags organizationId
  | .deleteGroup id => GroupService.delete id

inductive Other
  /-- Anything else that happens to hosts. -/
  | hosts (db : Db)
  /-- Users assign tags, or delete them. -/
  | tags (tagging : Tagging)

def other : Other → State → State
  | .hosts db, s => s.onHosts { db with networks := s.ledger.data.db.networks }
  | .tags tagging, s =>
    { ledger := { s.ledger with tagging }
      wanted := fun id => { s.wanted id with tags := (getForEntity id .group tagging).toFinset } }

abbrev Action := Pool.Action Request Other

def step : Pool Label AnyError State → Action → Option (Pool Label AnyError State) := Pool.step (fun _ => start) other

/-- The groups are as they are to be, and have no binding that is not stored. -/
structure Kept (s : State) : Prop where
  wanted : ∀ id, s.wanted id = s.view id
  references : ∀ x ∈ s.ledger.data.groupBindings.rows, (s.ledger.data.db.bindings.get x.bindingId).isSome = true

/-- The bindings can be made those of the group. -/
structure Insertable (d : Inventory) (groupId : Uuid) (bindingIds : List Uuid) : Prop where
  nodup : bindingIds.Nodup
  group : bindingIds ≠ [] → (d.groups.get groupId).isSome = true
  bindings : ∀ b ∈ bindingIds, (d.db.bindings.get b).isSome = true

instance (d : Inventory) (groupId : Uuid) (bindingIds : List Uuid) : Decidable (Insertable d groupId bindingIds) :=
  decidable_of_iff (bindingIds.Nodup ∧ (bindingIds ≠ [] → (d.groups.get groupId).isSome = true) ∧
      ∀ b ∈ bindingIds, (d.db.bindings.get b).isSome = true)
    ⟨fun ⟨h, h', h''⟩ => ⟨h, h', h''⟩, fun ⟨h, h', h''⟩ => ⟨h, h', h''⟩⟩

/-- Where a cleanup writes, what is stored is what it read; of the bindings, those it does not remove. Statements that are
refused are left out. -/
def Write.Fresh (s : State) : Write → Prop
  | .updateRow (.cleanup _) group => ∀ stored ∈ s.ledger.data.groups.get group.id,
    s.ledger.data.db.hasNetwork group.networkId = true → stored = { group with bindingIds := [] }
  | .saveForGroup (.cleanup removed) groupId bindingIds => Insertable s.ledger.data groupId bindingIds →
    bindingIds = (s.ledger.data.bindingsOfGroup groupId).filter fun b => !removed.contains b
  | .setTags (.cleanup _) .group groupId tagIds =>
    tagIds.Nodup → (∀ tagId ∈ tagIds, (s.ledger.tagging.tags.get tagId).isSome = true) →
      tagIds.toFinset = (getForEntity groupId .group s.ledger.tagging).toFinset
  | _ => True

instance (s : State) (w : Write) : Decidable (w.Fresh s) := by
  unfold Write.Fresh
  split <;> infer_instance

def Label.Fresh : Label → State → Prop
  | .write w, s => w.Fresh s
  | .read, _ | .hosts, _ => True

instance (label : Label) (s : State) : Decidable (label.Fresh s) := by
  cases label <;> unfold Label.Fresh <;> infer_instance

/-- What the statements do, by their labels. -/
def Does : Label → State → State → Prop
  | .read, s, t => t = s
  | .hosts, s, t => ∃ db, t = s.onHosts db
  | .write w, s, t => t = after w.statement s

/-! ## Tables -/

variable {d : Inventory} {s t : State} {groupId id : Uuid} {bindingIds : List Uuid} {author : Author}

theorem Insertable.nil : Insertable d groupId [] := ⟨List.nodup_nil, fun h => absurd rfl h, List.forall_mem_nil _⟩

theorem insertable_cons {b : Uuid} : Insertable d groupId (b :: bindingIds) ↔
    ((d.groups.get groupId).isSome = true ∧ (d.db.bindings.get b).isSome = true) ∧ b ∉ bindingIds ∧
      Insertable d groupId bindingIds := by
  constructor
  · intro h
    obtain ⟨hb, hnodup⟩ := List.nodup_cons.mp h.nodup
    refine ⟨⟨h.group (by simp), h.bindings b List.mem_cons_self⟩, hb, hnodup, fun _ => h.group (by simp), ?_⟩
    exact fun x hx => h.bindings x (List.mem_cons_of_mem _ hx)
  · rintro ⟨⟨hgroup, hbinding⟩, hb, h⟩
    exact ⟨List.nodup_cons.mpr ⟨hb, h.nodup⟩, fun _ => hgroup, List.forall_mem_cons.mpr ⟨hbinding, h.bindings⟩⟩

/-- What inserting one row, and rows one after another, comes to. -/
theorem wp_insertGroupBinding {x : GroupBinding} :
    wp (Inventory.insertGroupBinding x)
      (fun _ d' => (∀ y ∈ d.groupBindings.rows, y.key ≠ x.key) ∧ (d.groups.get x.groupId).isSome = true ∧
        (d.db.bindings.get x.bindingId).isSome = true ∧ d'.groupBindings.rows = d.groupBindings.rows ++ [x] ∧
        d'.groups = d.groups ∧ d'.db = d.db)
      (fun _ _ => ¬ ((∀ y ∈ d.groupBindings.rows, y.key ≠ x.key) ∧ (d.groups.get x.groupId).isSome = true ∧
        (d.db.bindings.get x.bindingId).isSome = true)) d := by
  simp only [Inventory.insertGroupBinding, Program.wp_bind, Program.wp_get]
  split
  · next hnone =>
    obtain ⟨y, hy, hkey⟩ := Table.insert_eq_none.mp hnone
    exact fun h => h.1 y hy hkey
  · next groupBindings hsome =>
    obtain ⟨hrows, hfree⟩ := Table.insert_eq_some hsome
    simp only [Program.wp_ite, Program.wp_throw, Program.wp_set]
    refine ⟨fun hgroup h => ?_, fun hgroup => ⟨fun hbinding h => ?_, fun hbinding => ?_⟩⟩
    · simp [Option.isNone_iff_eq_none.mp hgroup] at h
    · simp [Option.isNone_iff_eq_none.mp hbinding] at h
    · rw [Option.isNone_iff_eq_none, ← ne_eq, Option.ne_none_iff_isSome] at hgroup hbinding
      exact ⟨hfree, hgroup, hbinding, hrows, trivial, trivial⟩

/-- The rows that a group's bindings are stored as. -/
def rowsOf (groupId : Uuid) (bindingIds : List Uuid) (k : Nat) : List GroupBinding :=
  (bindingIds.zipIdx k).map fun (bindingId, position) => { groupId, bindingId, position }

/-- The group has none of the bindings yet. -/
def Free (d : Inventory) (groupId : Uuid) (bindingIds : List Uuid) : Prop :=
  ∀ b ∈ bindingIds, ∀ y ∈ d.groupBindings.rows, y.key ≠ (groupId, b)

theorem free_cons {b : Uuid} : Free d groupId (b :: bindingIds) ↔
    (∀ y ∈ d.groupBindings.rows, y.key ≠ (groupId, b)) ∧ Free d groupId bindingIds := by
  rw [Free, List.forall_mem_cons]
  exact Iff.rfl

/-- Inserting goes on to the end, unless a row is refused. -/
theorem wp_insertAll {s : Failing.Planned AnyError (Ledger Inventory)} (hcalm : s.faults = []) {k : Nat} :
    wp ((bindingIds.zipIdx k).forM fun (bindingId, position) =>
        Failing.statement (onData (Inventory.insertGroupBinding { groupId, bindingId, position })))
      (fun _ t => t.faults = [] ∧
        (Insertable s.store.data groupId bindingIds ∧ Free s.store.data groupId bindingIds) ∧
        t.store.data.groupBindings.rows = s.store.data.groupBindings.rows ++ rowsOf groupId bindingIds k ∧
        t.store.data.groups = s.store.data.groups ∧ t.store.data.db = s.store.data.db ∧
          t.store.tagging = s.store.tagging)
      (fun _ _ => ¬ (Insertable s.store.data groupId bindingIds ∧ Free s.store.data groupId bindingIds)) s := by
  have hnone : s.fault = none := by rw [Failing.Planned.fault, hcalm]; rfl
  induction bindingIds generalizing s k with
  | nil => exact ⟨hcalm, ⟨.nil, List.forall_mem_nil _⟩, (List.append_nil _).symm, rfl, rfl, rfl⟩
  | cons b bindingIds ih =>
    rw [List.zipIdx_cons, List.forM, Program.wp_bind, Failing.wp_statement]
    refine ⟨fun e he => absurd (hnone.symm.trans he) (by simp), fun _ => ?_⟩
    rw [Crud.wp_onData, insertable_cons, free_cons]
    refine wp_insertGroupBinding.mono (fun _ d hinserted => ?_) fun _ d hnot h => ?_
    · obtain ⟨hfree, hgroup, hbinding, hrows, hgroups, hdb⟩ := hinserted
      have hcalm' : (s.next { s.store with data := d }).faults = [] := by rw [Failing.Planned.next_faults, hcalm]; rfl
      have hrest : (Insertable d groupId bindingIds ∧ Free d groupId bindingIds) ↔
          b ∉ bindingIds ∧ Insertable s.store.data groupId bindingIds ∧ Free s.store.data groupId bindingIds := by
        have hsame : Insertable d groupId bindingIds ↔ Insertable s.store.data groupId bindingIds := by
          constructor
          · exact fun h => ⟨h.nodup, hgroups ▸ h.group, hdb ▸ h.bindings⟩
          · exact fun h => ⟨h.nodup, hgroups ▸ h.group, hdb ▸ h.bindings⟩
        have hnew : Free d groupId bindingIds ↔ Free s.store.data groupId bindingIds ∧ b ∉ bindingIds := by
          simp only [Free, hrows, List.mem_append, List.mem_singleton, or_imp, forall_and, forall_eq,
            GroupBinding.key, ne_eq, Prod.mk.injEq, true_and]
          refine and_congr_right fun _ => ⟨fun h hb => h b hb rfl, fun h x hx heq => h (heq ▸ hx)⟩
        rw [hsame, hnew]
        tauto
      refine (ih hcalm' (by rw [Failing.Planned.fault, hcalm']; rfl)).mono
        (fun _ t hran => ?_) fun _ t hnot h => hnot (hrest.mpr ?_)
      · obtain ⟨hfaults, hall, hrows', hgroups', hdb', htagging⟩ := hran
        obtain ⟨hb, hinsertable, hfree'⟩ := hrest.mp hall
        refine ⟨hfaults, ⟨⟨⟨hgroup, hbinding⟩, hb, hinsertable⟩, hfree, hfree'⟩, ?_, hgroups'.trans hgroups,
          hdb'.trans hdb, htagging⟩
        rw [hrows', Failing.Planned.next_store, hrows, List.append_assoc]
        rfl
      · exact ⟨h.1.2.1, h.1.2.2, h.2.2⟩
    · exact hnot ⟨h.2.1, h.1.1.1, h.1.1.2⟩

/-- The bindings of the group are those that were saved, in their order. -/
structure Saved (groupId : Uuid) (bindingIds : List Uuid) (l m : Ledger Inventory) : Prop where
  rows : m.data.groupBindings.rows = (l.data.groupBindings.rows.filter fun x => x.groupId != groupId) ++
    rowsOf groupId bindingIds 0
  groups : m.data.groups = l.data.groups
  db : m.data.db = l.data.db
  tagging : m.tagging = l.tagging

theorem wp_saveForGroup (l : Ledger Inventory) :
    wp (Failing.calm (GroupBindingStorage.saveForGroup groupId bindingIds))
      (fun _ m => Insertable l.data groupId bindingIds ∧ Saved groupId bindingIds l m)
      (fun _ _ => ¬ Insertable l.data groupId bindingIds) l := by
  have hnot {e : AnyError} {P : Prop} : none = some e → P := fun h => by cases h
  rw [Failing.wp_calm]
  simp only [GroupBindingStorage.saveForGroup, Program.wp_bind, Failing.wp_statement, Program.wp_pure,
    Failing.wp_transaction, Crud.wp_onData, Program.wp_modify]
  refine ⟨fun e he => hnot he, fun _ => ⟨fun e he => hnot he, fun _ => ?_⟩⟩
  have hfree : Free (Inventory.deleteGroupBindings groupId l.data) groupId bindingIds := by
    intro b _ y hy hkey
    obtain ⟨-, hgroup⟩ := Table.mem_filter.mp hy
    simp [GroupBinding.key] at hkey
    simp [hkey.1] at hgroup
  refine (wp_insertAll rfl).mono (fun _ t hran => ?_) fun _ _ h h' => h ⟨?_, hfree⟩
  · obtain ⟨hfaults, ⟨hinsertable, -⟩, hrows, hgroups, hdb, htagging⟩ := hran
    have hnone : t.fault = none := by rw [Failing.Planned.fault, hfaults]; rfl
    refine ⟨fun e he => hnot (hnone.symm.trans he), fun _ => ⟨?_, hrows, hgroups, hdb, htagging⟩⟩
    exact ⟨hinsertable.nodup, hinsertable.group, hinsertable.bindings⟩
  · exact ⟨h'.nodup, h'.group, h'.bindings⟩

theorem mem_rowsOf {x : GroupBinding} {k : Nat} (h : x ∈ rowsOf groupId bindingIds k) :
    x.groupId = groupId ∧ x.bindingId ∈ bindingIds ∧ k ≤ x.position := by
  obtain ⟨⟨b, position⟩, hmem, rfl⟩ := List.mem_map.mp h
  exact ⟨rfl, List.fst_mem_of_mem_zipIdx hmem, List.le_snd_of_mem_zipIdx hmem⟩

/-- They are stored by position. -/
theorem sorted_rowsOf (k : Nat) :
    (rowsOf groupId bindingIds k).Pairwise fun x y => (x.position : Int) ≤ y.position := by
  induction bindingIds generalizing k with
  | nil => exact List.Pairwise.nil
  | cons b bindingIds ih =>
    refine List.Pairwise.cons (fun x hx => ?_) (ih (k + 1))
    have hle := (mem_rowsOf hx).2.2
    show (k : Int) ≤ x.position
    omega

theorem map_rowsOf (k : Nat) : (rowsOf groupId bindingIds k).map (·.bindingId) = bindingIds := by
  induction bindingIds generalizing k with
  | nil => rfl
  | cons b bindingIds ih => exact congrArg (b :: ·) (ih (k + 1))

theorem Saved.bindingsOfGroup {l m : Ledger Inventory} (h : Saved groupId bindingIds l m) (id : Uuid) :
    m.data.bindingsOfGroup id = if id = groupId then bindingIds else l.data.bindingsOfGroup id := by
  have hold : (l.data.groupBindings.rows.filter fun x => x.groupId != groupId).filter (fun x => x.groupId == id) =
      if id = groupId then [] else l.data.groupBindings.rows.filter fun x => x.groupId == id := by
    rw [List.filter_filter]
    split
    · next heq =>
      subst heq
      refine List.filter_eq_nil_iff.mpr fun x _ => ?_
      by_cases hx : x.groupId = id <;> simp [hx]
    · next hne =>
      refine List.filter_congr fun x _ => ?_
      by_cases hx : x.groupId = id <;> simp [hx, hne]
  have hnew : (rowsOf groupId bindingIds 0).filter (fun x => x.groupId == id) =
      if id = groupId then rowsOf groupId bindingIds 0 else [] := by
    split
    · next heq =>
      refine List.filter_eq_self.mpr fun x hx => ?_
      simp [(mem_rowsOf hx).1, heq]
    · next hne =>
      refine List.filter_eq_nil_iff.mpr fun x hx => ?_
      simp [(mem_rowsOf hx).1, Ne.symm hne]
  simp only [Inventory.bindingsOfGroup, Table.select, h.rows, List.filter_append, hold, hnew]
  split
  · rw [List.nil_append, (sorted_rowsOf 0).insertionSort_eq, map_rowsOf]
  · rw [List.append_nil]

/-! ## What is to be, and what is -/

/-- Where all other groups are as they are to be, one is to be made so. -/
theorem kept_want (t : State) {f : GroupView → GroupView} (hothers : ∀ i, i ≠ id → t.wanted i = t.view i)
    (hrefs : ∀ x ∈ t.ledger.data.groupBindings.rows, (t.ledger.data.db.bindings.get x.bindingId).isSome = true) :
    Kept (t.want id f) ↔ f (t.wanted id) = t.view id := by
  constructor
  · intro h
    have hid : (if id = id then f (t.wanted id) else t.wanted id) = t.view id := h.wanted id
    rwa [if_pos rfl] at hid
  · intro h
    refine ⟨fun i => ?_, hrefs⟩
    show (if i = id then f (t.wanted i) else t.wanted i) = t.view i
    split
    · next heq => rw [heq, h]
    · next hne => exact hothers i hne

theorem kept_iff (t : State) (hothers : ∀ i, i ≠ id → t.wanted i = t.view i)
    (hrefs : ∀ x ∈ t.ledger.data.groupBindings.rows, (t.ledger.data.db.bindings.get x.bindingId).isSome = true) :
    Kept t ↔ t.wanted id = t.view id := by
  refine ⟨fun h => h.wanted id, fun h => ⟨fun i => ?_, hrefs⟩⟩
  by_cases hi : i = id
  · rw [hi, h]
  · exact hothers i hi

variable {ledger : Ledger Inventory}

/-- The row of a group is written. -/
theorem Kept.row (h : Kept s) (rows : Table Group Group.id)
    (hothers : ∀ i, i ≠ id → rows.get i = s.ledger.data.groups.get i) :
    Kept (State.noteRow { s with ledger.data.groups := rows } author id) ↔
      author = .user ∨ rows.get id = s.ledger.data.groups.get id := by
  have hview (i : Uuid) : State.view { s with ledger.data.groups := rows } i = { s.view i with row := rows.get i } :=
    rfl
  have hsame (i : Uuid) (hi : i ≠ id) : s.wanted i = State.view { s with ledger.data.groups := rows } i := by
    rw [hview, hothers i hi, h.wanted]
    rfl
  cases author with
  | user =>
    rw [State.noteRow, kept_want { s with ledger.data.groups := rows } hsame h.references, hview, h.wanted]
    exact iff_of_true rfl (.inl rfl)
  | cleanup removed =>
    rw [State.noteRow, kept_iff { s with ledger.data.groups := rows } hsame h.references, hview, h.wanted]
    simp only [State.view, GroupView.mk.injEq, and_true, reduceCtorEq, false_or]
    exact eq_comm

/-- What a statement of the author is to leave of the bindings. -/
def Author.Leaves (old new : List Uuid) : Author → Prop
  | .user => True
  | .cleanup removed => new = old.filter fun b => !removed.contains b

/-- The bindings of a group are written. -/
theorem Kept.bindings (h : Kept s) (hgroups : ledger.data.groups = s.ledger.data.groups)
    (hothers : ∀ i, i ≠ id → ledger.data.bindingsOfGroup i = s.ledger.data.bindingsOfGroup i)
    (hrefs : ∀ x ∈ ledger.data.groupBindings.rows, (ledger.data.db.bindings.get x.bindingId).isSome = true)
    (htagging : ledger.tagging = s.ledger.tagging) :
    Kept (State.noteBindings { s with ledger } author id) ↔
      author.Leaves (s.ledger.data.bindingsOfGroup id) (ledger.data.bindingsOfGroup id) := by
  have hview (i : Uuid) : State.view { s with ledger } i =
      { s.view i with bindingIds := ledger.data.bindingsOfGroup i } := by
    simp only [State.view, hgroups, htagging]
  have hsame (i : Uuid) (hi : i ≠ id) : s.wanted i = State.view { s with ledger } i := by
    rw [hview, hothers i hi, h.wanted]
    rfl
  cases author with
  | user =>
    rw [State.noteBindings, kept_want { s with ledger } hsame hrefs, hview, h.wanted]
    exact iff_of_true rfl trivial
  | cleanup removed =>
    rw [State.noteBindings, kept_want { s with ledger } hsame hrefs, hview, h.wanted]
    simp only [State.view, GroupView.mk.injEq, true_and, and_true]
    exact eq_comm

/-- The tags of a group are written. -/
theorem Kept.tags (h : Kept s) (hdata : ledger.data = s.ledger.data)
    (hothers : ∀ i, i ≠ id →
      (getForEntity i .group ledger.tagging).toFinset = (getForEntity i .group s.ledger.tagging).toFinset) :
    Kept (State.noteTags { s with ledger } author id) ↔ author = .user ∨
      (getForEntity id .group ledger.tagging).toFinset = (getForEntity id .group s.ledger.tagging).toFinset := by
  have hrefs : ∀ x ∈ ledger.data.groupBindings.rows, (ledger.data.db.bindings.get x.bindingId).isSome = true := by
    rw [hdata]
    exact h.references
  have hview (i : Uuid) : State.view { s with ledger } i =
      { s.view i with tags := (getForEntity i .group ledger.tagging).toFinset } := by
    simp only [State.view, hdata]
  have hsame (i : Uuid) (hi : i ≠ id) : s.wanted i = State.view { s with ledger } i := by
    rw [hview, hothers i hi, h.wanted]
    rfl
  cases author with
  | user =>
    rw [State.noteTags, kept_want { s with ledger } hsame hrefs, hview, h.wanted]
    exact iff_of_true rfl (.inl rfl)
  | cleanup removed =>
    rw [State.noteTags, kept_iff { s with ledger } hsame hrefs, hview, h.wanted]
    simp only [State.view, GroupView.mk.injEq, true_and, reduceCtorEq, false_or]
    exact eq_comm

theorem Kept.onHosts (h : Kept s) (db : Db) : Kept (s.onHosts db) := by
  refine ⟨fun id => ?_, fun x hx => ?_⟩
  · simp only [State.onHosts, State.view, h.wanted, Inventory.bindingsOfGroup, Table.select_filter, List.filter_map,
      Function.comp_def]
  · exact (Table.mem_filter.mp hx).2

theorem Kept.other (h : Kept s) (e : Other) : Kept (other e s) := by
  cases e with
  | hosts db => exact h.onHosts _
  | tags tagging =>
    refine ⟨fun id => ?_, h.references⟩
    simp only [GroupCleanup.other, State.view, h.wanted]

/-! ## One statement -/

theorem wp_statement {w : Write} {Q : Unit → State → Prop} {E : AnyError → State → Prop} :
    wp w.statement Q E s ↔
        wp w.run (fun _ ledger => Q () (w.note { s with ledger })) (fun e _ => E e s) s.ledger := by
  simp only [wp, Write.statement]
  cases w.run s.ledger <;> exact Iff.rfl

/-- Whether a statement keeps the groups comes down to one condition, made or refused. -/
theorem kept_statement {w : Write} {C : Prop}
    (h : wp w.run (fun _ ledger => Kept (w.note { s with ledger }) ↔ C) (fun _ _ => Kept s ↔ C) s.ledger) :
    Kept (after w.statement s) ↔ C := by
  rw [← Program.wp_after (P := Kept), wp_statement]
  exact h.iff

theorem kept_insertRow (h : Kept s) {group : Group} : Kept (after (Write.insertRow group).statement s) ↔ True := by
  refine kept_statement ?_
  simp only [Write.run, Crud.wp_onData, groups, Inventory.insertGroup, Program.wp_bind, Program.wp_get]
  split
  · exact iff_of_true h trivial
  · next rows hinsert =>
    simp only [Program.wp_ite, Program.wp_set, Program.wp_throw]
    refine ⟨fun _ => ?_, fun _ => iff_of_true h trivial⟩
    refine iff_of_true ((Kept.row h rows fun i hi => ?_).mpr (.inl rfl)) trivial
    rw [Table.get_insert hinsert, if_neg hi]

theorem kept_updateRow (h : Kept s) {group : Group} :
    Kept (after (Write.updateRow author group).statement s) ↔ (Write.updateRow author group).Fresh s := by
  refine kept_statement ?_
  simp only [Write.run, Crud.wp_onData, groups, Inventory.updateGroup, Program.wp_bind, Program.wp_get,
    Program.wp_ite, Program.wp_pure, Program.wp_set, Program.wp_throw]
  refine ⟨fun hnone => ?_, fun hsome => ⟨fun hnetwork => ?_, fun hnetwork => ?_⟩⟩
  · rw [Option.isNone_iff_eq_none] at hnone
    refine iff_of_true ((Kept.row h s.ledger.data.groups fun _ _ => rfl).mpr (.inr rfl)) ?_
    cases author with
    | user => trivial
    | cleanup removed =>
      intro stored hstored
      rw [hnone] at hstored
      cases hstored
  · have hget : ∀ id, (s.ledger.data.groups.update { group with bindingIds := [] }).get id =
        if id = group.id then (s.ledger.data.groups.get id).map fun _ => { group with bindingIds := [] }
        else s.ledger.data.groups.get id := fun id => Table.get_update
    refine (Kept.row h _ fun i hi => by rw [hget, if_neg hi]).trans ?_
    cases author with
    | user => exact iff_of_true (.inl rfl) trivial
    | cleanup removed =>
      simp only [reduceCtorEq, false_or, hget, if_true, Write.Fresh, hnetwork, forall_const]
      cases s.ledger.data.groups.get group.id with
      | none => simp
      | some stored => simp [eq_comm]
  · refine iff_of_true h ?_
    cases author with
    | user => trivial
    | cleanup removed => exact fun _ _ hnetwork' => absurd hnetwork' hnetwork

theorem kept_saveForGroup (h : Kept s) :
    Kept (after (Write.saveForGroup author groupId bindingIds).statement s) ↔
      (Write.saveForGroup author groupId bindingIds).Fresh s := by
  refine kept_statement
    ((wp_saveForGroup s.ledger).mono (fun _ ledger ⟨hinsertable, hsaved⟩ => ?_) fun _ _ hnot => ?_)
  · have hrefs : ∀ x ∈ ledger.data.groupBindings.rows, (ledger.data.db.bindings.get x.bindingId).isSome = true := by
      intro x hx
      rw [hsaved.rows] at hx
      rw [hsaved.db]
      rcases List.mem_append.mp hx with hx | hx
      · exact h.references x (List.mem_filter.mp hx).1
      · exact hinsertable.bindings _ (mem_rowsOf hx).2.1
    refine (Kept.bindings h hsaved.groups (fun i hi => ?_) hrefs hsaved.tagging).trans ?_
    · rw [hsaved.bindingsOfGroup, if_neg hi]
    · rw [hsaved.bindingsOfGroup, if_pos rfl]
      cases author with
      | user => exact Iff.rfl
      | cleanup removed => exact ⟨fun hleaves _ => hleaves, fun hfresh => hfresh hinsertable⟩
  · refine iff_of_true h ?_
    cases author with
    | user => trivial
    | cleanup removed => exact fun hinsertable => absurd hinsertable hnot

theorem kept_deleteRow (h : Kept s) : Kept (after (Write.deleteRow groupId).statement s) ↔ True := by
  refine kept_statement (iff_of_true ⟨fun i => ?_, fun x hx => h.references x (Table.mem_filter.mp hx).1⟩ trivial)
  by_cases hi : i = groupId
  · simp [Write.note, State.noteRow, State.noteBindings, State.want, State.view, hi, h.wanted]
  · have hrow : (Inventory.deleteGroups [groupId] s.ledger.data).groups.get i = s.ledger.data.groups.get i := by
      rw [Inventory.deleteGroups, Table.get_filter]
      cases hget : s.ledger.data.groups.get i with
      | none => rfl
      | some group =>
        obtain ⟨-, hid⟩ := Table.get_eq_some.mp hget
        simp [hid, hi]
    have hbindings : (Inventory.deleteGroups [groupId] s.ledger.data).bindingsOfGroup i =
        s.ledger.data.bindingsOfGroup i := by
      rw [Inventory.deleteGroups, Inventory.bindingsOfGroup, Table.select_filter, Inventory.bindingsOfGroup,
        List.filter_eq_self.mpr]
      intro x hx
      obtain ⟨-, hid⟩ := Table.mem_select.mp hx
      rw [beq_iff_eq.mp hid]
      simp [hi]
    simp only [Write.note, State.noteRow, State.noteBindings, State.want, hi, if_false, h.wanted]
    simp only [State.view, groups, hrow, hbindings]

/-! ### Tags -/

section Tags

variable {entityType : EntityDiscriminants} {entityId : Uuid} {tagIds : List Uuid}

open EntityTagStorage (Replaced)

/-- What is inserted to the end exists. -/
theorem wp_insertTags {s : Failing.Planned AnyError Tagging} :
    wp (tagIds.forM fun tagId => Failing.statement (Tagging.createEntityTag { entityId, entityType, tagId }))
      (fun _ _ => ∀ tagId ∈ tagIds, (s.store.tags.get tagId).isSome = true) (fun _ _ => True) s := by
  induction tagIds generalizing s with
  | nil => exact List.forall_mem_nil _
  | cons tagId tagIds ih =>
    rw [List.forM, Program.wp_bind, Failing.wp_statement]
    refine ⟨fun _ _ => trivial, fun _ => ?_⟩
    simp only [Tagging.createEntityTag, Program.wp_bind, Program.wp_get]
    split
    · trivial
    · simp only [Program.wp_ite, Program.wp_set, Program.wp_throw]
      refine ⟨fun htag => ih.mono (fun _ _ hrest => ?_) fun _ _ h => h, fun _ => trivial⟩
      exact List.forall_mem_cons.mpr ⟨htag, hrest⟩

/-- The tags are replaced, or there is a reason that they are not. -/
theorem wp_replaceTags (l : Ledger Inventory) :
    wp (Write.setTags author entityType entityId tagIds).run
      (fun _ m => m.data = l.data ∧ (tagIds.Nodup ∧ ∀ tagId ∈ tagIds, (l.tagging.tags.get tagId).isSome = true) ∧
        Replaced entityId entityType tagIds l.tagging m.tagging)
      (fun _ _ => ¬ (tagIds.Nodup ∧ ∀ tagId ∈ tagIds, (l.tagging.tags.get tagId).isSome = true)) l := by
  simp only [Write.run, Failing.wp_calm, onTags, Failing.wp_within, EntityTagService.wp_inContext]
  by_cases htags : ∀ tagId ∈ tagIds, (l.tagging.tags.get tagId).isSome = true
  · exact (EntityTagStorage.wp_set htags).mono (fun _ t ⟨⟨_, hnodup⟩, hreplaced⟩ =>
      ⟨trivial, ⟨hnodup, htags⟩, hreplaced⟩)
      fun _ t ⟨hnot, _⟩ h => hnot ⟨fun i _ => by simp [faultAt], h.1⟩
  · have hfails : wp (EntityTagStorage.set entityId entityType tagIds) (fun _ _ => False) (fun _ _ => True)
        { store := l.tagging, faults := [] } := by
      simp only [EntityTagStorage.set, Program.wp_bind, Failing.wp_statement, Program.wp_pure, Failing.wp_transaction,
        Tagging.wp_deleteByFilter]
      refine ⟨fun _ _ => trivial, fun _ => ⟨fun _ _ => trivial, fun _ => ?_⟩⟩
      exact wp_insertTags.mono (fun _ t hall => absurd hall htags) fun _ _ h => h
    exact hfails.mono (fun _ _ hfalse => hfalse.elim) fun _ _ _ h => htags h.2

/-- The tags of all else are as they were. -/
theorem toFinset_getForEntity {t u : Tagging} {id : Uuid} {kind : EntityDiscriminants}
    (h : ∀ tagId, u.Assigned { entityId := id, entityType := kind, tagId } ↔
      t.Assigned { entityId := id, entityType := kind, tagId }) :
    (getForEntity id kind u).toFinset = (getForEntity id kind t).toFinset := by
  ext tagId
  rw [List.mem_toFinset, List.mem_toFinset, mem_getForEntity, mem_getForEntity, h]

/-- Tags of what is no group are of no group. -/
theorem kept_tags_of_ne {ledger : Ledger Inventory} (h : Kept s) (hdata : ledger.data = s.ledger.data)
    (hsame : ∀ i tagId, ledger.tagging.Assigned { entityId := i, entityType := .group, tagId } ↔
      s.ledger.tagging.Assigned { entityId := i, entityType := .group, tagId }) : Kept { s with ledger } := by
  refine ⟨fun i => ?_, fun x hx => ?_⟩
  · rw [h.wanted]
    simp only [State.view, hdata, toFinset_getForEntity (hsame i)]
  · simp only [hdata] at hx ⊢
    exact h.references x hx

theorem kept_setTags (h : Kept s) : Kept (after (Write.setTags author entityType entityId tagIds).statement s) ↔
    (Write.setTags author entityType entityId tagIds).Fresh s := by
  by_cases htype : entityType = .group
  · subst htype
    refine kept_statement ((wp_replaceTags s.ledger).mono (fun _ ledger ⟨hdata, ⟨hnodup, htags⟩, hreplaced⟩ => ?_)
      fun _ _ hnot => ?_)
    · refine (Kept.tags h hdata fun i hi => toFinset_getForEntity fun tagId => ?_).trans ?_
      · rw [hreplaced, if_neg fun heq => hi heq.1]
      · cases author with
        | user => exact iff_of_true (.inl rfl) trivial
        | cleanup removed =>
          have hnew : (getForEntity entityId .group ledger.tagging).toFinset = tagIds.toFinset := by
            ext tagId
            rw [List.mem_toFinset, List.mem_toFinset, mem_getForEntity, hreplaced, if_pos ⟨rfl, rfl⟩]
          simp only [reduceCtorEq, false_or, hnew]
          exact ⟨fun hsame _ _ => hsame, fun hfresh => hfresh hnodup htags⟩
    · refine iff_of_true h ?_
      cases author with
      | user => trivial
      | cleanup removed => exact fun hnodup htags => absurd ⟨hnodup, htags⟩ hnot
  · have hfresh : (Write.setTags author entityType entityId tagIds).Fresh s := by
      cases author <;> cases entityType <;> trivial
    have hnote (t : State) : (Write.setTags author entityType entityId tagIds).note t = t := by
      cases entityType <;> first | rfl | exact absurd rfl htype
    refine kept_statement ((wp_replaceTags s.ledger).mono (fun _ ledger ⟨hdata, _, hreplaced⟩ => ?_) fun _ _ _ => ?_)
    · rw [hnote]
      refine iff_of_true (kept_tags_of_ne h hdata fun i tagId => ?_) hfresh
      rw [hreplaced, if_neg fun heq => htype heq.2.symm]
    · exact iff_of_true h hfresh

theorem kept_removeTags (h : Kept s) : Kept (after (Write.removeTags entityType entityId).statement s) ↔ True := by
  refine kept_statement ?_
  simp only [Write.run, Failing.wp_calm, onTags, Failing.wp_within, EntityTagStorage.removeAllForEntity,
    Program.wp_bind, Failing.wp_statement, Tagging.wp_deleteByFilter, Program.wp_pure]
  refine ⟨fun _ _ => iff_of_true h trivial, fun _ => iff_of_true ?_ trivial⟩
  by_cases htype : entityType = .group
  · subst htype
    refine (Kept.tags h ?_ fun i hi => toFinset_getForEntity fun tagId => ?_).mpr (.inl rfl)
    · rfl
    exact EntityTagStorage.assigned_cleared.trans (and_iff_left fun heq => hi heq.1)
  · have hnote (t : State) : (Write.removeTags entityType entityId).note t = t := by
      cases entityType <;> first | rfl | exact absurd rfl htype
    rw [hnote]
    refine kept_tags_of_ne h rfl fun i tagId => ?_
    exact EntityTagStorage.assigned_cleared.trans (and_iff_left fun heq => htype heq.2.symm)

end Tags

/-- What a statement does keeps the groups exactly if it is fresh. -/
theorem kept_does {label : Label} (h : Kept s) (hdoes : Does label s t) : Kept t ↔ label.Fresh s := by
  cases label with
  | read =>
    cases hdoes
    exact iff_of_true h trivial
  | hosts =>
    obtain ⟨db, rfl⟩ := hdoes
    exact iff_of_true (h.onHosts db) trivial
  | write w =>
    cases hdoes
    cases w with
    | insertRow group => exact kept_insertRow h
    | updateRow author group => exact kept_updateRow h
    | saveForGroup author groupId bindingIds => exact kept_saveForGroup h
    | deleteRow groupId => exact kept_deleteRow h
    | setTags author entityType entityId tagIds => exact kept_setTags h
    | removeTags entityType entityId => exact kept_removeTags h

/-! ## Runs -/

theorem does_read {α : Type} {f : State → α} : Process.Does Does (query .read f : Steps α) :=
  Process.does_query fun _ => rfl

theorem does_write (w : Write) : Process.Does Does (write w) := Process.does_statement fun _ => rfl

theorem does_hosts {α : Type} (p : HostUpdate.Steps α) : Process.Does Does (hosts p) :=
  Process.does_within (fun _ db _ => ⟨db, rfl⟩) p

theorem does_setTags {entityType : EntityDiscriminants} {tagIds : List Uuid} {organizationId : Option Uuid} :
    Process.Does Does (setTags author entityType id tagIds organizationId) := by
  have hvalidate (organizationId tagId : Uuid) : Process.Does Does (validateTag organizationId tagId) := by
    refine does_read.bind fun tag => ?_
    cases tag with
    | none => exact Process.does_fail _
    | some tag =>
      dsimp only
      split
      · exact Process.does_fail _
      · exact Process.does_pure _
  unfold setTags
  split
  · exact Process.does_pure _
  · next organizationId =>
    split
    · exact Process.does_pure _
    · exact (Process.Does.forM (hvalidate organizationId) _).bind fun _ => does_write _

theorem does_getById : Process.Does Does (GroupService.getById id) := by
  refine does_read.bind fun row => ?_
  cases row with
  | none => exact Process.does_pure _
  | some group => exact does_read.bind fun _ => does_read.bind fun _ => Process.does_pure _

theorem does_updateGroup {group : Group} {tags : List Uuid} {organizationId : Option Uuid} :
    Process.Does Does (GroupService.update author group tags organizationId) := by
  refine does_getById.bind fun found => ?_
  cases found with
  | none => exact Process.does_fail _
  | some _ => exact (does_write _).bind fun _ => (does_write _).bind fun _ => does_setTags

theorem does_cleanup {service : Service} {updates : Option Service} {organizationId : Option Uuid} :
    Process.Does Does (ServiceService.updateGroupServiceBindings service updates organizationId) := by
  have hall (networkId : Uuid) : Process.Does Does (GroupService.getAll networkId) := by
    refine does_read.bind fun rows => ?_
    split
    · exact Process.does_pure _
    · exact does_read.bind fun _ => does_read.bind fun _ => Process.does_pure _
  exact (hall _).bind fun _ => Process.Does.forM (fun _ => does_updateGroup) _

theorem does_start (r : Request) : Process.Does Does (start r) := by
  cases r with
  | updateService service tags organizationId =>
    refine (does_hosts _).bind fun found => ?_
    cases found with
    | none => exact Process.does_fail _
    | some current =>
      exact (does_hosts _).bind fun _ => does_cleanup.bind fun _ => (does_hosts _).bind fun _ => does_setTags
  | deleteService id organizationId =>
    refine (does_hosts _).bind fun found => ?_
    cases found with
    | none => exact Process.does_fail _
    | some current => exact does_cleanup.bind fun _ => (does_write _).bind fun _ => does_hosts _
  | createGroup group tags organizationId =>
    exact (does_write _).bind fun _ => (does_write _).bind fun _ => does_setTags
  | updateGroup group tags organizationId => exact does_updateGroup
  | deleteGroup id =>
    refine does_getById.bind fun found => ?_
    cases found with
    | none => exact Process.does_fail _
    | some _ => exact (does_write _).bind fun _ => does_write _

/-- **The groups are as users left them, without the bindings that are removed, exactly if each statement of a cleanup
finds the part of the group that it writes as the cleanup read it.** -/
theorem kept_iff_fresh (h : Kept s) (as : List Action) :
    Visits step (fun p => Kept p.state) { state := s } as ↔
      Along step (Pool.Meets Label.Fresh fun _ _ => True) { state := s } as :=
  Pool.visits_iff_along (fun _ => does_start) (fun _ _ _ => kept_does)
    (fun e _ h => iff_of_true (h.other e) trivial) h as

/-! ## A group that is edited while a service is deleted -/

/-- Where the groups are to be as they are. -/
def State.ofLedger (ledger : Ledger Inventory) : State where
  ledger
  wanted := State.view ⟨ledger, fun _ => ⟨none, [], [].toFinset⟩⟩

/-- A group with the bindings of two services. -/
def twoServices : Inventory where
  db :=
    { networks := [9]
      hosts := ⟨[{ id := 1, base := { networkId := 9 } }], by decide⟩
      ports := ⟨[{ id := 2, base := { hostId := 1, networkId := 9 } },
        { id := 3, base := { hostId := 1, networkId := 9 } }], by decide⟩
      services := ⟨[{ id := 4, base := { hostId := 1, networkId := 9 } },
        { id := 5, base := { hostId := 1, networkId := 9 } }], by decide⟩
      bindings := ⟨[{ id := 6, base := { serviceId := 4, networkId := 9, bindingType := .port 2 none } },
        { id := 7, base := { serviceId := 5, networkId := 9, bindingType := .port 3 none } }], by decide⟩ }
  groups := ⟨[{ id := 8, name := "web", networkId := 9 }], by decide⟩
  groupBindings := ⟨[⟨8, 6, 0⟩, ⟨8, 7, 1⟩], by decide⟩

theorem kept_twoServices : Kept (.ofLedger { data := twoServices }) := ⟨fun _ => rfl, by decide⟩

/-- The group is renamed, and a service is deleted. -/
def renameAndDelete : List Action :=
  [.request (.updateGroup { id := 8, name := "edge", networkId := 9, bindingIds := [6, 7] } [] none),
    .request (.deleteService 4 none)]

/-- Where the one comes after the other, both have their effect. -/
theorem kept_one_after_another : Visits step (fun p => Kept p.state) { state := .ofLedger { data := twoServices } }
    (renameAndDelete ++ List.replicate 5 (.issue 0) ++ List.replicate 12 (.issue 1)) := by
  rw [kept_iff_fresh kept_twoServices]
  decide +kernel

/-- Where the service reads the groups before, and writes them after, the group has its old name again. -/
theorem rename_overwritten : ¬ Visits step (fun p => Kept p.state) { state := .ofLedger { data := twoServices } }
    (renameAndDelete ++ List.replicate 5 (.issue 1) ++ List.replicate 5 (.issue 0) ++
      List.replicate 7 (.issue 1)) := by
  intro h
  have hrun : (Transition.run step { state := .ofLedger { data := twoServices } }
      (renameAndDelete ++ List.replicate 5 (.issue 1) ++ List.replicate 5 (.issue 0) ++
        List.replicate 7 (.issue 1))).any
      (fun p => p.tasks.all (fun task => task.phase.isNone) && p.state.wanted 8 != p.state.view 8) = true := by
    decide +kernel
  obtain ⟨p, hp, hlost⟩ := (Option.any_eq_true _ _).mp hrun
  simp only [Bool.and_eq_true, bne_iff_ne] at hlost
  exact hlost.2 ((h.last hp).wanted 8)

end GroupCleanup

end Netvisor
