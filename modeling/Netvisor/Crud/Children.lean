/-
`ChildCrudService`: the entities of a parent, and saving them as a whole.

What is stored is compared with what is requested once, before the first
statement that writes: what is no longer requested is deleted, then the requested
ones are written one after the other, each with its event.
-/
import Netvisor.Crud.Rows
import Netvisor.Services.Service

namespace Netvisor

open Failing (Planned statement StaysCalm)
open Program (wp)
open Ledger
open Crud (Calm)

/-- An entity that has a parent, is kept in one table and has no tags. -/
structure ChildCrud (δ : Type) {T : Type} (key : T → Uuid) where
  rows : Rows δ key
  entityType : EntityDiscriminants
  display : T → String
  stamp : Uuid → DateTime → T → T
  /-- What is said of a row whose key is taken. -/
  taken : AnyError
  /-- How the database refuses to insert a row whose key is free. -/
  refuseInsert : T → δ → Option AnyError
  /-- How it refuses to write a row over the one with its key. -/
  refuseUpdate : T → δ → Option AnyError
  delete : List Uuid → δ → δ
  parentId : T → Uuid
  createdAt : T → DateTime
  setId : Uuid → T → T
  setCreatedAt : DateTime → T → T
  mem_delete : ∀ {ids d r}, r ∈ (rows.table (delete ids d)).rows ↔ r ∈ (rows.table d).rows ∧ key r ∉ ids
  key_setId : ∀ id r, key (setId id r) = id
  parentId_setId : ∀ id r, parentId (setId id r) = parentId r
  key_setCreatedAt : ∀ at' r, key (setCreatedAt at' r) = key r
  parentId_setCreatedAt : ∀ at' r, parentId (setCreatedAt at' r) = parentId r
  createdAt_setCreatedAt : ∀ at' r, createdAt (setCreatedAt at' r) = at'

namespace ChildCrud

variable {δ T : Type} {key : T → Uuid} (c : ChildCrud δ key)

/-- `INSERT`. -/
def insert (entity : T) : EStateM AnyError δ Unit := do
  let d ← get
  match (c.rows.table d).insert entity, c.refuseInsert entity d with
  | none, _ => throw c.taken
  | some _, some e => throw e
  | some table, none => set (c.rows.put table d)

/-- `UPDATE`, which is no error if the row is missing. -/
def update (entity : T) : EStateM AnyError δ Unit := do
  let d ← get
  if ((c.rows.table d).get (key entity)).isNone then return ()
  else
    match c.refuseUpdate entity d with
    | some e => throw e
    | none => set (c.rows.update entity d)

theorem insert_eq_ok {entity : T} {d d' : δ} (h : c.insert entity d = .ok () d') :
    ∃ table, (c.rows.table d).insert entity = some table ∧ d' = c.rows.put table d := by
  have hwp : wp (c.insert entity) (fun _ d' => ∃ table, (c.rows.table d).insert entity = some table ∧
      d' = c.rows.put table d) (fun _ _ => True) d := by
    simp only [insert, Program.wp_bind, Program.wp_get]
    split
    · trivial
    · trivial
    · next table hinsert _ => exact ⟨table, hinsert, rfl⟩
  exact (Program.wp_of_ok h).mp hwp

theorem update_eq_ok {entity : T} {d d' : δ} (h : c.update entity d = .ok () d')
    (hfound : ((c.rows.table d).get (key entity)).isSome = true) : d' = c.rows.update entity d := by
  have hwp : wp (c.update entity) (fun _ d' => d' = c.rows.update entity d) (fun _ _ => True) d := by
    simp only [update, Program.wp_bind, Program.wp_get, Program.wp_ite]
    refine ⟨fun hnone => ?_, fun _ => ?_⟩
    · rw [Option.isNone_iff_eq_none.mp hnone] at hfound
      cases hfound
    · split
      · trivial
      · rfl
  exact (Program.wp_of_ok h).mp hwp

/-- The operations on a single entity, which are those of all entities. -/
def crud : Crud δ T where
  entityType := c.entityType
  tableName := c.rows.name
  display := c.display
  id := key
  stamp := c.stamp
  taggable := false
  reads := 0
  find d id := (c.rows.table d).get id
  insert := c.insert
  update := c.update
  delete := c.delete
  find_insert h := by
    obtain ⟨table, hinsert, rfl⟩ := c.insert_eq_ok h
    rw [c.rows.table_put, Table.get_insert hinsert, if_pos rfl]
    exact ⟨Table.get_eq_none.mpr (Table.insert_eq_some hinsert).2, rfl⟩
  find_update h hfound := by
    rw [c.update_eq_ok h hfound, Rows.table_update, Table.get_update, if_pos rfl, Option.isSome_map]
    exact hfound
  find_delete hi := Table.get_eq_none.mpr fun _ hr hkey => (c.mem_delete.mp hr).2 (hkey ▸ hi)

/-- The children of a parent. -/
def childrenOf (d : δ) (parentId : Uuid) : List T := (c.rows.table d).rows.filter fun r => c.parentId r == parentId

def getForParent (parentId : Uuid) : Writes δ (List T) := c.crud.getAll fun d => c.childrenOf d parentId

/-- One of the requested children, with the children stored before. -/
def saveChild (existing : List T) (child : T) : Writes δ T := do
  if key child == Uuid.nil then
    let id ← Ledger.newV4
    c.crud.create (c.setId id child) none none
  else
    match existing.find? fun r => key r == key child with
    | some r => c.crud.save (c.setCreatedAt (c.createdAt r) child) none none
    | none => c.crud.create child none none

/-- The ids of the stored children that are not requested. -/
def idsToDelete (key : T → Uuid) (existing children : List T) : List Uuid :=
  (existing.map key).filter fun id => !((children.filter fun r => key r != Uuid.nil).map key).contains id

def saveForParent (parentId : Uuid) (children : List T) : Writes δ (List T) := do
  let existing ← c.getForParent parentId
  if !(idsToDelete key existing children).isEmpty then
    let _ ← c.crud.deleteMany (idsToDelete key existing children)
  children.mapM (c.saveChild existing)

end ChildCrud

/-! ## The bindings of a service -/

namespace BindingService

def rows : Rows Db Binding.id where
  name := "bindings"
  table := Db.bindings
  put bindings db := { db with bindings }
  table_put _ _ := rfl
  put_table _ := rfl
  put_put _ _ _ := rfl

/-- The first of the rows the binding refers to that is missing. -/
def missing (binding : Binding) (db : Db) : Option AnyError :=
  if !db.hasNetwork binding.base.networkId then some (missingReference "bindings" "bindings_network_id_fkey")
  else if !db.hasService binding.base.serviceId then some (missingReference "bindings" "bindings_service_id_fkey")
  else if !binding.interfaceId.all db.hasInterface then some
    (missingReference "bindings" "bindings_interface_id_fkey")
  else if !binding.portId.all db.hasPort then some (missingReference "bindings" "bindings_port_id_fkey")
  else none

/-- The bindings as children of their service. -/
def children : ChildCrud Db Binding.id where
  rows := rows
  entityType := .binding
  display := Binding.display
  stamp id now binding := { binding with id, createdAt := now, updatedAt := now }
  taken := { message := "A record with these values already exists (bindings_pkey)", validation := true }
  refuseInsert := missing
  refuseUpdate := missing
  delete ids db := db.deleteBindings ids
  parentId binding := binding.base.serviceId
  createdAt := Binding.createdAt
  setId id binding := { binding with id }
  setCreatedAt createdAt binding := { binding with createdAt }
  mem_delete {ids d r} := by
    simp only [rows, Db.deleteBindings, Table.mem_filter, List.contains_eq_mem, Bool.not_eq_true',
      decide_eq_false_iff_not]
  key_setId _ _ := rfl
  parentId_setId _ _ := rfl
  key_setCreatedAt _ _ := rfl
  parentId_setCreatedAt _ _ := rfl
  createdAt_setCreatedAt _ _ := rfl

end BindingService

namespace ChildCrud

/-! ## What is asked for and what becomes of it -/

variable {δ T : Type} {key : T → Uuid} (c : ChildCrud δ key)

section Specification

variable (l : Ledger δ) (parentId : Uuid)

/-- The child requested, and the row it is stored as. -/
inductive Saves : T → T → Prop
  | drawn {child : T} {id : Uuid} (hnil : key child = Uuid.nil) (hid : id ∈ l.drawn) : Saves child (c.setId id child)
  | kept {child old : T} (hnil : key child ≠ Uuid.nil) (hold : old ∈ c.childrenOf l.data parentId)
    (hkey : key old = key child) :
    Saves child (c.setCreatedAt (c.createdAt old) child)
  | new {child : T} (hnil : key child ≠ Uuid.nil) (hnew : ∀ r ∈ (c.rows.table l.data).rows, key r ≠ key child) :
    Saves child child

/-- Whether the child is created or updated. -/
def operation (child : T) : EntityOperation :=
  if key child ≠ Uuid.nil ∧ key child ∈ (c.childrenOf l.data parentId).map key then .updated else .created

/-- What is told of the children that are no longer requested. -/
def deletions (children : List T) : List Announced :=
  (idsToDelete key (c.childrenOf l.data parentId) children).map fun id => c.crud.event id .deleted

/-- What is told of those that are saved. -/
def savings (children out : List T) : List Announced :=
  (children.zip out).map fun x => c.crud.event (key x.2) (c.operation l parentId x.1)

/-- The ids that are requested are different, no other parent has them, and enough new ones are there. -/
structure Requested (children : List T) : Prop where
  parent : ∀ child ∈ children, c.parentId child = parentId
  distinct : children.Pairwise fun x y => key x = key y → key x = Uuid.nil
  unowned : ∀ child ∈ children, key child ≠ Uuid.nil → ∀ r ∈ (c.rows.table l.data).rows, key r = key child →
    c.parentId r = parentId
  drawn : l.drawn.Nodup
  nonnil : Uuid.nil ∉ l.drawn
  unstored : ∀ r ∈ (c.rows.table l.data).rows, key r ∉ l.drawn
  unknown : ∀ child ∈ children, key child ∉ l.drawn
  enough : (children.countP fun r => key r = Uuid.nil) ≤ l.drawn.length

/-- The children of the parent are the ones requested, nothing else is changed, and each change is told once. -/
structure Synchronised (children out : List T) (l' : Ledger δ) : Prop where
  saved : List.Forall₂ (c.Saves l parentId) children out
  stored : (c.childrenOf l'.data parentId).Perm out
  others : ∀ r, c.parentId r ≠ parentId → (r ∈ (c.rows.table l'.data).rows ↔ r ∈ (c.rows.table l.data).rows)
  told : ∃ news, l'.events = news ++ l.events ∧
    news.Perm (c.deletions l parentId children ++ c.savings l parentId children out) ∧
    (news.map (·.entityId)).Nodup

/-- The database refuses the row of one of the children. -/
def Refused (children : List T) (d : δ) : Prop :=
  ∃ child ∈ children, ∃ row, c.Saves l parentId child row ∧
    ((c.refuseInsert row d).isSome = true ∨ (c.refuseUpdate row d).isSome = true)

end Specification

/-! ## Single operations -/

variable {c} {s t : Planned AnyError (Ledger δ)} {l : Ledger δ} {parentId : Uuid} {children out done rest : List T}
  {child row r : T}

theorem mem_childrenOf {d : δ} : r ∈ c.childrenOf d parentId ↔
    r ∈ (c.rows.table d).rows ∧ c.parentId r = parentId := by
  rw [childrenOf, List.mem_filter, beq_iff_eq]

theorem nodup_childrenOf {d : δ} : ((c.childrenOf d parentId).map key).Nodup :=
  (c.rows.table d).nodup.sublist (List.filter_sublist.map key)

theorem fault_not_calm {e : AnyError} (h : s.fault = some e) : ¬ Calm s := by
  intro hcalm
  rw [Planned.fault, hcalm] at h
  cases h

theorem calm_next {l : Ledger δ} (h : Calm s) : Calm (s.next l) := by
  rw [Calm, Planned.next_faults, h]
  rfl

/-- A row with a free id is inserted and told of. -/
theorem wp_create {Q : T → Planned AnyError (Ledger δ) → Prop} {E : AnyError → Planned AnyError (Ledger δ) → Prop}
    (hnil : key row ≠ Uuid.nil) (hfree : ∀ r ∈ (c.rows.table s.store.data).rows, key r ≠ key row)
    (hE : ∀ e t, ¬ Calm s ∨ t.store.data = s.store.data ∧ (c.refuseInsert row s.store.data).isSome = true → E e t)
    (hQ : ∀ t d, (Calm s → Calm t) →
      (∀ r, r ∈ (c.rows.table d).rows ↔ r = row ∨ r ∈ (c.rows.table s.store.data).rows ∧ key r ≠ key row) →
      t.store = { s.store with data := d, events := c.crud.event (key row) .created :: s.store.events } → Q row t) :
    wp (c.crud.create row none none) Q E s := by
  have hid : c.crud.orNew row = return row := if_neg (by simpa [crud] using hnil)
  rw [Crud.create, hid, pure_bind, Program.wp_bind, Failing.wp_statement, Crud.wp_onData]
  refine ⟨fun e he => hE e _ (.inl (fault_not_calm he)), fun _ => ?_⟩
  change wp (c.insert row) _ _ _
  simp only [insert, Program.wp_bind, Program.wp_get]
  cases hinsert : (c.rows.table s.store.data).insert row with
  | none =>
    obtain ⟨r, hr, hkey⟩ := Table.insert_eq_none.mp hinsert
    exact absurd hkey (hfree r hr)
  | some table =>
    cases hrefuse : c.refuseInsert row s.store.data with
    | some e => exact hE e _ (.inr ⟨rfl, by rw [hrefuse]; rfl⟩)
    | none =>
      refine hQ _ (c.rows.put table s.store.data) calm_next (fun r => ?_) rfl
      rw [c.rows.table_put, (Table.insert_eq_some hinsert).1, List.mem_append, List.mem_singleton, or_comm]
      exact or_congr_right (iff_self_and.mpr (hfree r))

/-- A stored row is written over and told of. -/
theorem wp_save {old : T} {Q : T → Planned AnyError (Ledger δ) → Prop}
    {E : AnyError → Planned AnyError (Ledger δ) → Prop}
    (hold : old ∈ (c.rows.table s.store.data).rows) (hkey : key old = key row)
    (hE : ∀ e t, ¬ Calm s ∨ t.store.data = s.store.data ∧ (c.refuseUpdate row s.store.data).isSome = true → E e t)
    (hQ : ∀ t d, (Calm s → Calm t) →
      (∀ r, r ∈ (c.rows.table d).rows ↔ r = row ∨ r ∈ (c.rows.table s.store.data).rows ∧ key r ≠ key row) →
      t.store = { s.store with data := d, events := c.crud.event (key row) .updated :: s.store.events } → Q row t) :
    wp (c.crud.save row none none) Q E s := by
  have hget : (c.rows.table s.store.data).get (key row) = some old := Table.get_eq_some.mpr ⟨hold, hkey⟩
  have hfind : c.crud.find s.store.data (c.crud.id row) = some old := hget
  rw [Crud.save, Program.wp_bind, Crud.getById, Program.wp_bind, Crud.wp_read]
  refine ⟨fun e he => hE e _ (.inl (fault_not_calm he)), fun _ => ?_⟩
  simp only [hfind]
  change wp (do
    statement (onData (c.update row))
    c.crud.saveTags row none none
    publish c.entityType (key row) .updated
    return row) _ _ _
  rw [Program.wp_bind, Failing.wp_statement, Crud.wp_onData]
  refine ⟨fun e he => hE e _ (.inl fun hcalm => fault_not_calm he (calm_next hcalm)), fun _ => ?_⟩
  simp only [update, Program.wp_bind, Program.wp_get, Planned.next_store, hget, Option.isNone_some,
    Bool.false_eq_true, if_false]
  cases hrefuse : c.refuseUpdate row s.store.data with
  | some e => exact hE e _ (.inr ⟨rfl, by rw [hrefuse]; rfl⟩)
  | none =>
    refine hQ _ (c.rows.update row s.store.data) (fun hcalm => calm_next (calm_next hcalm)) (fun r => ?_) rfl
    rw [Rows.table_update, Table.mem_update]
    exact or_congr_left (and_iff_left ⟨old, hold, hkey⟩)

/-- Each of the stored entities to delete is told of. -/
theorem wp_announce {ids : List Uuid} {Q : Unit → Planned AnyError (Ledger δ) → Prop}
    {E : AnyError → Planned AnyError (Ledger δ) → Prop}
    (hids : ∀ id ∈ ids, ∃ r ∈ (c.rows.table s.store.data).rows, key r = id) (hE : ∀ e t, ¬ Calm s → E e t)
    (hQ : ∀ t, (Calm s → Calm t) →
      t.store = { s.store with events := (ids.map fun id => c.crud.event id .deleted).reverse ++ s.store.events } →
        Q () t) :
    wp (ids.forM c.crud.announceDeleted) Q E s := by
  induction ids generalizing s with
  | nil => exact hQ s id rfl
  | cons id ids ih =>
    obtain ⟨r, hr, hkey⟩ := hids id List.mem_cons_self
    have hfind : c.crud.find s.store.data id = some r := Table.get_eq_some.mpr ⟨hr, hkey⟩
    rw [List.forM, Program.wp_bind, Crud.announceDeleted, Program.wp_bind, Crud.getById, Program.wp_bind,
      Crud.wp_read]
    refine ⟨fun e he => hE e _ (fault_not_calm he), fun _ => ?_⟩
    simp only [hfind]
    refine ih (s := { s.next s.store with store.events := c.crud.event id .deleted :: s.store.events })
      (fun i hi => hids i (List.mem_cons_of_mem id hi)) (fun e t hnot => hE e t fun hcalm => hnot (calm_next hcalm))
      fun t hcalm hstore => hQ t (fun h => hcalm (calm_next h)) ?_
    rw [hstore, List.map_cons, List.reverse_cons, List.append_assoc, List.singleton_append]
    rfl

/-- The stored entities are told of and deleted. -/
theorem wp_deleteMany {ids : List Uuid} {Q : Nat → Planned AnyError (Ledger δ) → Prop}
    {E : AnyError → Planned AnyError (Ledger δ) → Prop} (hnonempty : ids ≠ [])
    (hids : ∀ id ∈ ids, ∃ r ∈ (c.rows.table s.store.data).rows, key r = id) (hE : ∀ e t, ¬ Calm s → E e t)
    (hQ : ∀ n t, (Calm s → Calm t) →
      t.store = { s.store with
        data := c.delete ids s.store.data
        events := (ids.map fun id => c.crud.event id .deleted).reverse ++ s.store.events } → Q n t) :
    wp (c.crud.deleteMany ids) Q E s := by
  rw [Crud.deleteMany, if_neg (by rwa [List.isEmpty_iff]), Program.wp_bind]
  refine wp_announce hids hE fun t hcalm hstore => ?_
  rw [Failing.wp_statement, Crud.wp_onData]
  refine ⟨fun e he => hE e _ fun h => fault_not_calm he (hcalm h), fun _ => ?_⟩
  refine hQ _ _ (fun h => calm_next (hcalm h)) ?_
  rw [Planned.next_store, hstore]
  rfl

/-! ## The loop -/

/-- The rows that are not deleted. -/
def left (c : ChildCrud δ key) (l : Ledger δ) (parentId : Uuid) (children : List T) : List T :=
  (c.rows.table l.data).rows.filter fun r =>
  !(idsToDelete key (c.childrenOf l.data parentId) children).contains (key r)

/-- While the children are saved: the rows are those saved and those that are left of the others. -/
structure Syncing (c : ChildCrud δ key) (l : Ledger δ) (parentId : Uuid) (children done out : List T)
    (l' : Ledger δ) : Prop where
  rows : ∀ r, r ∈ (c.rows.table l'.data).rows ↔ r ∈ out ∨ r ∈ c.left l parentId children ∧ key r ∉ out.map key
  saved : List.Forall₂ (c.Saves l parentId) done out
  drawn : l'.drawn = l.drawn.drop (done.countP fun r => key r = Uuid.nil)
  unused : ∀ r ∈ out, key r ∉ l'.drawn
  nodup : (out.map key).Nodup
  events : l'.events = (c.savings l parentId done out).reverse ++
    ((c.deletions l parentId children).reverse ++ l.events)

/-- The id of a saved child is the one requested or a new one. -/
theorem Saves.key_eq (h : c.Saves l parentId child row) : (key child ≠ Uuid.nil ∧ key row = key child) ∨
    (key child = Uuid.nil ∧ key row ∈ l.drawn) := by
  cases h with
  | drawn hnil hid => exact .inr ⟨hnil, (c.key_setId _ _).symm ▸ hid⟩
  | kept hnil hold hkey => exact .inl ⟨hnil, c.key_setCreatedAt _ _⟩
  | new hnil hnew => exact .inl ⟨hnil, rfl⟩

theorem Saves.parentId_eq (h : c.Saves l parentId child row) : c.parentId row = c.parentId child := by
  cases h with
  | drawn hnil hid => exact c.parentId_setId _ _
  | kept hnil hold hkey => exact c.parentId_setCreatedAt _ _
  | new hnil hnew => rfl

/-- A row stored before with the id of a saved child is the child, as it was. -/
theorem Saves.parentId_of_key_eq (h : c.Saves l parentId child row) (hreq : c.Requested l parentId children)
    (hr : r ∈ (c.rows.table l.data).rows) (hkey : key r = key row) : c.parentId r = parentId := by
  cases h with
  | drawn hnil hid =>
    rw [c.key_setId] at hkey
    exact absurd (hkey ▸ hid) (hreq.unstored r hr)
  | kept hnil hold hold_key =>
    rw [c.key_setCreatedAt, ← hold_key] at hkey
    obtain ⟨hold, hparent⟩ := mem_childrenOf.mp hold
    rwa [(c.rows.table l.data).eq_of_key hr hold hkey]
  | new hnil hnew => exact absurd hkey (hnew r hr)

theorem exists_child (h : List.Forall₂ (c.Saves l parentId) children out) (hrow : row ∈ out) :
    ∃ child ∈ children, c.Saves l parentId child row := by
  obtain ⟨i, hi, rfl⟩ := List.mem_iff_getElem.mp hrow
  exact ⟨_, List.getElem_mem (h.length_eq ▸ hi), h.get (h.length_eq ▸ hi) hi⟩

theorem exists_row (h : List.Forall₂ (c.Saves l parentId) children out) (hchild : child ∈ children) :
    ∃ row ∈ out, c.Saves l parentId child row := by
  obtain ⟨i, hi, rfl⟩ := List.mem_iff_getElem.mp hchild
  exact ⟨_, List.getElem_mem (h.length_eq ▸ hi), h.get hi (h.length_eq ▸ hi)⟩

/-- The id of the next child is not that of a child saved before it. -/
theorem Syncing.key_notMem {l' : Ledger δ} (h : Syncing c l parentId children done out l')
    (hreq : c.Requested l parentId (done ++ child :: rest)) : key child ∉ out.map key := by
  intro hmem
  obtain ⟨row, hrow, hkey⟩ := List.mem_map.mp hmem
  obtain ⟨earlier, hearlier, hsaved⟩ := exists_child h.saved hrow
  rcases hsaved.key_eq with ⟨hne, heq⟩ | ⟨-, hdrawn⟩
  · have hpair := (List.pairwise_append.mp hreq.distinct).2.2 earlier hearlier child List.mem_cons_self
    exact hne (hpair (heq.symm.trans hkey))
  · rw [hkey] at hdrawn
    exact hreq.unknown child (List.mem_append_right _ List.mem_cons_self) hdrawn

/-- A child that was saved is one more. -/
theorem Syncing.step {l' l'' : Ledger δ} (h : Syncing c l parentId children done out l')
    (hsaves : c.Saves l parentId child row)
    (hrows : ∀ r, r ∈ (c.rows.table l''.data).rows ↔ r = row ∨ r ∈ (c.rows.table l'.data).rows ∧ key r ≠ key row)
    (hdrawn : l''.drawn = l.drawn.drop ((done ++ [child]).countP fun r => key r = Uuid.nil))
    (hsuffix : ∀ id ∈ l''.drawn, id ∈ l'.drawn) (hunused : key row ∉ l''.drawn) (hnew : key row ∉ out.map key)
    (hevents : l''.events = c.crud.event (key row) (c.operation l parentId child) :: l'.events) :
    Syncing c l parentId children (done ++ [child]) (out ++ [row]) l'' where
  rows r := by
    rw [hrows, h.rows, List.mem_append, List.mem_singleton, List.map_append, List.mem_append, List.map_singleton,
      List.mem_singleton]
    constructor
    · rintro (rfl | ⟨hout | ⟨hleft, hkey⟩, hne⟩)
      · exact .inl (.inr rfl)
      · exact .inl (.inl hout)
      · exact .inr ⟨hleft, fun hmem => hmem.elim hkey hne⟩
    · rintro ((hout | rfl) | ⟨hleft, hkey⟩)
      · exact .inr ⟨.inl hout, fun heq => hnew (heq ▸ List.mem_map.mpr ⟨r, hout, rfl⟩)⟩
      · exact .inl rfl
      · exact .inr ⟨.inr ⟨hleft, fun hmem => hkey (.inl hmem)⟩, fun heq => hkey (.inr heq)⟩
  saved := List.rel_append h.saved (.cons hsaves .nil)
  drawn := hdrawn
  unused r hr hmem := by
    rcases List.mem_append.mp hr with hr | hr
    · exact h.unused r hr (hsuffix _ hmem)
    · rw [List.mem_singleton.mp hr] at hmem
      exact hunused hmem
  nodup := by
    rw [List.map_append, List.map_singleton, List.nodup_append]
    refine ⟨h.nodup, List.nodup_singleton _, fun x hx y hy heq => hnew ?_⟩
    rwa [heq, List.mem_singleton.mp hy] at hx
  events := by
    have hsavings : c.savings l parentId (done ++ [child]) (out ++ [row]) =
        c.savings l parentId done out ++ [c.crud.event (key row) (c.operation l parentId child)] := by
      rw [savings, List.zip_append h.saved.length_eq, List.map_append]
      rfl
    rw [hevents, h.events, hsavings, List.reverse_append]
    rfl

theorem operation_updated {old : T} (hnil : key child ≠ Uuid.nil) (hold : old ∈ c.childrenOf l.data parentId)
    (hkey : key old = key child) : c.operation l parentId child = .updated :=
  if_pos ⟨hnil, List.mem_map.mpr ⟨old, hold, hkey⟩⟩

theorem operation_created (h : key child = Uuid.nil ∨ ∀ r ∈ (c.rows.table l.data).rows, key r ≠ key child) :
    c.operation l parentId child = .created := by
  refine if_neg fun ⟨hnil, hmem⟩ => ?_
  obtain ⟨r, hr, hkey⟩ := List.mem_map.mp hmem
  rcases h with h | h
  · exact hnil h
  · exact h r (mem_childrenOf.mp hr).1 hkey

theorem mem_idsToDelete {existing : List T} {id : Uuid} : id ∈ idsToDelete key existing children ↔
    id ∈ existing.map key ∧ ∀ child ∈ children, key child ≠ Uuid.nil → key child ≠ id := by
  rw [idsToDelete, List.mem_filter]
  refine and_congr_right fun _ => ?_
  simp [and_imp]

theorem mem_left : r ∈ c.left l parentId children ↔ r ∈ (c.rows.table l.data).rows ∧
    (c.parentId r = parentId → ∃ child ∈ children, key child ≠ Uuid.nil ∧ key child = key r) := by
  rw [left, List.mem_filter]
  refine and_congr_right fun hr => ?_
  rw [Bool.not_eq_true', List.contains_eq_mem, decide_eq_false_iff_not, mem_idsToDelete]
  have hmem : key r ∈ (c.childrenOf l.data parentId).map key ↔ c.parentId r = parentId := by
    rw [List.mem_map]
    constructor
    · rintro ⟨old, hold, hkey⟩
      obtain ⟨hold, hparent⟩ := mem_childrenOf.mp hold
      rwa [(c.rows.table l.data).eq_of_key hr hold hkey.symm]
    · intro hparent
      exact ⟨r, mem_childrenOf.mpr ⟨hr, hparent⟩, rfl⟩
  rw [hmem]
  push Not
  rfl

/-- One round: the child is saved, or the database refuses it. -/
theorem wp_saveChild (hall : children = done ++ child :: rest) (hreq : c.Requested l parentId children)
    (h : Syncing c l parentId children done out s.store) :
    wp (c.saveChild (c.childrenOf l.data parentId) child)
      (fun row t => (Calm s → Calm t) ∧ Syncing c l parentId children (done ++ [child]) (out ++ [row]) t.store)
      (fun _ t => ¬ Calm s ∨ c.Refused l parentId children t.store.data) s := by
  have hmem : child ∈ children := by simp [hall]
  have hrefused {row : T} {t : Planned AnyError (Ledger δ)} (hdata : t.store.data = s.store.data)
      (hsaves : c.Saves l parentId child row)
      (hr : (c.refuseInsert row s.store.data).isSome = true ∨ (c.refuseUpdate row s.store.data).isSome = true) :
      c.Refused l parentId children t.store.data := ⟨child, hmem, row, hsaves, by rwa [hdata]⟩
  unfold saveChild
  by_cases hnil : key child = Uuid.nil
  · rw [if_pos (beq_iff_eq.mpr hnil), Program.wp_bind]
    -- there is an id left, since there are as many as children that need one
    have hcount : (done.countP fun r => key r = Uuid.nil) < l.drawn.length := by
      have henough := hreq.enough
      rw [hall, List.countP_append, List.countP_cons, hnil] at henough
      simp only [decide_true, if_true] at henough
      omega
    obtain ⟨id, ids, hids⟩ : ∃ id ids, s.store.drawn = id :: ids := by
      rw [h.drawn]
      exact ⟨_, _, (List.drop_eq_getElem_cons hcount)⟩
    have hid : id ∈ l.drawn := List.mem_of_mem_drop (h.drawn ▸ hids ▸ List.mem_cons_self)
    have hsaves : c.Saves l parentId child (c.setId id child) := .drawn hnil hid
    have hnodup : (id :: ids).Nodup := by
      rw [← hids, h.drawn]
      exact hreq.drawn.sublist (List.drop_sublist _ _)
    have hnew : id ∉ out.map key := fun hmem => by
      obtain ⟨r, hr, hkey⟩ := List.mem_map.mp hmem
      exact h.unused r hr (hkey ▸ hids ▸ List.mem_cons_self)
    change wp (c.crud.create (c.setId (s.store.drawn.headD Uuid.nil) child) none none) _ _
      { s with store.drawn := s.store.drawn.tail }
    have hkey : key (c.setId id child) = id := c.key_setId id child
    rw [hids, List.headD_cons, List.tail_cons]
    refine wp_create ?_ (fun r hr => ?_) (fun e t ht => ?_) fun t d hcalm hrows hstore => ⟨hcalm, ?_⟩
    · exact fun heq => hreq.nonnil (heq ▸ hkey.symm ▸ hid)
    · rw [hkey]
      rcases (h.rows r).mp hr with hr | ⟨hr, -⟩
      · exact fun heq => hnew (List.mem_map.mpr ⟨r, hr, heq⟩)
      · exact fun heq => hreq.unstored r (mem_left.mp hr).1 (heq ▸ hid)
    · exact ht.imp_right fun ⟨hdata, hr⟩ => hrefused hdata hsaves (.inl hr)
    · refine h.step hsaves (hstore ▸ hrows) ?_ (fun i hi => ?_) ?_ (hkey.symm ▸ hnew) ?_
      · have htail : ids = s.store.drawn.tail := by rw [hids, List.tail_cons]
        rw [hstore, List.countP_append, List.countP_singleton, hnil, htail, h.drawn, List.tail_drop]
        simp
      · rw [hids]
        rw [hstore] at hi
        exact List.mem_cons_of_mem id hi
      · rw [hstore, hkey]
        exact (List.nodup_cons.mp hnodup).1
      · rw [hstore, operation_created (.inl hnil)]
  · rw [if_neg (by simpa using hnil)]
    have hnew := h.key_notMem (hall ▸ hreq)
    have hdrawn : l.drawn.drop ((done ++ [child]).countP fun r => key r = Uuid.nil) = s.store.drawn := by
      rw [h.drawn, List.countP_append, List.countP_singleton]
      simp [hnil]
    have hunknown : key child ∉ s.store.drawn := fun hin =>
      hreq.unknown child hmem (List.mem_of_mem_drop (h.drawn ▸ hin))
    cases hfind : (c.childrenOf l.data parentId).find? fun r => key r == key child with
    | some old =>
      have hold := List.mem_of_find?_eq_some hfind
      have hkey : key old = key child := by simpa using List.find?_some hfind
      have hrow : key (c.setCreatedAt (c.createdAt old) child) = key child := c.key_setCreatedAt _ _
      have hsaves : c.Saves l parentId child (c.setCreatedAt (c.createdAt old) child) := .kept hnil hold hkey
      have hleft : old ∈ c.left l parentId children :=
        mem_left.mpr ⟨(mem_childrenOf.mp hold).1, fun _ => ⟨child, hmem, hnil, hkey.symm⟩⟩
      refine wp_save ((h.rows old).mpr (.inr ⟨hleft, hkey ▸ hnew⟩)) (hkey.trans hrow.symm) (fun e t ht => ?_)
        fun t d hcalm hrows hstore => ⟨hcalm, ?_⟩
      · exact ht.imp_right fun ⟨hdata, hr⟩ => hrefused hdata hsaves (.inr hr)
      · refine h.step hsaves (hstore ▸ hrows) ?_ (fun i hi => ?_) ?_ (hrow.symm ▸ hnew) ?_
        · rw [hstore, hdrawn]
        · rwa [hstore] at hi
        · rwa [hstore, hrow]
        · rw [hstore, operation_updated hnil hold hkey]
    | none =>
      have hfree (r : T) (hr : r ∈ (c.rows.table l.data).rows) : key r ≠ key child := fun hkey => by
        have hparent := hreq.unowned child hmem hnil r hr hkey
        simpa [hkey] using List.find?_eq_none.mp hfind r (mem_childrenOf.mpr ⟨hr, hparent⟩)
      refine wp_create hnil (fun r hr => ?_) (fun e t ht => ?_) fun t d hcalm hrows hstore => ⟨hcalm, ?_⟩
      · rcases (h.rows r).mp hr with hr | ⟨hr, -⟩
        · exact fun heq => hnew (List.mem_map.mpr ⟨r, hr, heq⟩)
        · exact hfree r (mem_left.mp hr).1
      · exact ht.imp_right fun ⟨hdata, hr⟩ => hrefused hdata (.new hnil hfree) (.inl hr)
      · refine h.step (.new hnil hfree) (hstore ▸ hrows) ?_ (fun i hi => ?_) ?_ hnew ?_
        · rw [hstore, hdrawn]
        · rwa [hstore] at hi
        · rwa [hstore]
        · rw [hstore, operation_created (.inr hfree)]

/-! ## The whole -/

/-- The changes that are told of are of different entities. -/
theorem nodup_told (hreq : c.Requested l parentId children) (hsaved : List.Forall₂ (c.Saves l parentId) children out)
    (hnodup : (out.map key).Nodup) :
    (idsToDelete key (c.childrenOf l.data parentId) children ++ out.map key).Nodup := by
  rw [List.nodup_append]
  refine ⟨nodup_childrenOf.sublist List.filter_sublist, hnodup, fun id hid id' hid' heq => ?_⟩
  subst heq
  obtain ⟨hstored, hunrequested⟩ := mem_idsToDelete.mp hid
  obtain ⟨row, hrow, hkey⟩ := List.mem_map.mp hid'
  obtain ⟨child, hchild, hsaves⟩ := exists_child hsaved hrow
  rcases hsaves.key_eq with ⟨hnil, heq⟩ | ⟨-, hdrawn⟩
  · exact hunrequested child hchild hnil (heq.symm.trans hkey)
  · obtain ⟨r, hr, hkey'⟩ := List.mem_map.mp hstored
    exact hreq.unstored r (mem_childrenOf.mp hr).1 ((hkey'.trans hkey.symm) ▸ hdrawn)

/-- Once all are saved the children are those requested. -/
theorem Syncing.synchronised {l' : Ledger δ} (hreq : c.Requested l parentId children)
    (h : Syncing c l parentId children children out l') : c.Synchronised l parentId children out l' where
  saved := h.saved
  stored := by
    refine (List.perm_ext_iff_of_nodup (List.Nodup.of_map key nodup_childrenOf)
      (List.Nodup.of_map key h.nodup)).mpr fun r => ?_
    rw [mem_childrenOf, h.rows]
    constructor
    · rintro ⟨hout | ⟨hleft, hkey⟩, hparent⟩
      · exact hout
      · obtain ⟨child, hchild, hnil, hchild_key⟩ := (mem_left.mp hleft).2 hparent
        obtain ⟨row, hrow, hsaves⟩ := exists_row h.saved hchild
        rcases hsaves.key_eq with ⟨-, heq⟩ | ⟨hnil', -⟩
        · exact absurd (List.mem_map.mpr ⟨row, hrow, heq.trans hchild_key⟩) hkey
        · exact absurd hnil' hnil
    · intro hout
      obtain ⟨child, hchild, hsaves⟩ := exists_child h.saved hout
      exact ⟨.inl hout, hsaves.parentId_eq.trans (hreq.parent child hchild)⟩
  others r hr := by
    rw [h.rows]
    constructor
    · rintro (hout | ⟨hleft, -⟩)
      · obtain ⟨child, hchild, hsaves⟩ := exists_child h.saved hout
        exact absurd (hsaves.parentId_eq.trans (hreq.parent child hchild)) hr
      · exact (mem_left.mp hleft).1
    · intro hstored
      refine .inr ⟨mem_left.mpr ⟨hstored, fun hparent => absurd hparent hr⟩, fun hmem => ?_⟩
      obtain ⟨row, hrow, hkey⟩ := List.mem_map.mp hmem
      obtain ⟨child, -, hsaves⟩ := exists_child h.saved hrow
      exact hr (hsaves.parentId_of_key_eq hreq hstored hkey.symm)
  told := by
    have hperm : ((c.savings l parentId children out).reverse ++ (c.deletions l parentId children).reverse).Perm
        (c.deletions l parentId children ++ c.savings l parentId children out) :=
      ((List.reverse_perm _).append (List.reverse_perm _)).trans List.perm_append_comm
    refine ⟨_, by rw [h.events, ← List.append_assoc], hperm, (hperm.map _).nodup_iff.mpr ?_⟩
    have hout : (children.zip out).map (fun x => key x.2) = out.map key := by
      conv_rhs => rw [← List.map_snd_zip h.saved.length_eq.ge, List.map_map]
      rfl
    have hids := nodup_told hreq h.saved h.nodup
    rw [deletions, savings, List.map_append, List.map_map, List.map_map]
    simpa only [Function.comp_def, Crud.event, List.map_id', hout] using hids

/-- Before the first child is saved. -/
theorem Syncing.start {l' : Ledger δ} (hrows : ∀ r, r ∈ (c.rows.table l'.data).rows ↔ r ∈ c.left l parentId children)
    (hdrawn : l'.drawn = l.drawn) (hevents : l'.events = (c.deletions l parentId children).reverse ++ l.events) :
    Syncing c l parentId children [] [] l' where
  rows r := by simpa using hrows r
  saved := .nil
  drawn := hdrawn
  unused r hr := absurd hr List.not_mem_nil
  nodup := List.nodup_nil
  events := hevents

/-- **Saving the children of a parent makes those stored the ones requested, keeps what was there of
them, leaves the others alone and tells of each change once; it fails only where a statement does.** -/
theorem saveForParent_synchronises (hreq : c.Requested s.store parentId children) :
    wp (c.saveForParent parentId children) (fun out t => c.Synchronised s.store parentId children out t.store)
      (fun _ t => ¬ Calm s ∨ c.Refused s.store parentId children t.store.data) s := by
  rw [saveForParent, Program.wp_bind]
  refine Crud.wp_getAll (fun e t hnot _ => .inl hnot) fun t hcalm hstore => ?_
  have hloop (u : Planned AnyError (Ledger δ)) (hcalm : Calm s → Calm u)
      (h : Syncing c s.store parentId children [] [] u.store) :
      wp (children.mapM (c.saveChild (c.childrenOf s.store.data parentId)))
        (fun out t => c.Synchronised s.store parentId children out t.store)
        (fun _ t => ¬ Calm s ∨ c.Refused s.store parentId children t.store.data) u := by
    have hrun := Program.wp_mapM_all (f := c.saveChild (c.childrenOf s.store.data parentId))
      (I := fun done out rest t => children = done ++ rest ∧ (Calm s → Calm t) ∧
        Syncing c s.store parentId children done out t.store)
      (E := fun _ t => ¬ Calm s ∨ c.Refused s.store parentId children t.store.data)
      (fun done out child rest t ⟨hall, hcalm, h⟩ => (wp_saveChild hall hreq h).mono
        (fun row v ⟨hcalm', h'⟩ => ⟨by simp [hall], fun hs => hcalm' (hcalm hs), h'⟩)
        fun _ v hv => hv.imp_left fun hnot hs => hnot (hcalm hs))
      (l := children) ⟨rfl, hcalm, h⟩
    exact hrun.mono (fun out v hv => hv.2.2.synchronised hreq) fun _ _ hv => hv
  have hleft (r : T) : r ∈ c.left s.store parentId children ↔ r ∈ (c.rows.table s.store.data).rows ∧
      key r ∉ idsToDelete key (c.childrenOf s.store.data parentId) children := by
    rw [left, List.mem_filter, Bool.not_eq_true', List.contains_eq_mem, decide_eq_false_iff_not]
  split
  · next hsome =>
    rw [Program.wp_bind]
    refine wp_deleteMany (fun hnone => ?_) (fun id hid => ?_) (fun e u hnot => .inl fun hs => hnot (hcalm hs))
      fun n u hcalm' hstore' => hloop u (fun hs => hcalm' (hcalm hs)) (.start (fun r => ?_) ?_ ?_)
    · rw [hnone] at hsome
      cases hsome
    · obtain ⟨r, hr, hkey⟩ := List.mem_map.mp (mem_idsToDelete.mp hid).1
      exact ⟨r, hstore ▸ (mem_childrenOf.mp hr).1, hkey⟩
    · rw [hstore', c.mem_delete, hleft, hstore]
    · rw [hstore', hstore]
    · rw [hstore', hstore]
      rfl
  · next hnone =>
    have hempty : idsToDelete key (c.childrenOf s.store.data parentId) children = [] := by
      simpa using hnone
    refine hloop t hcalm (.start (fun r => ?_) (by rw [hstore]) ?_)
    · rw [hleft, hempty, hstore]
      exact iff_self_and.mpr fun _ => List.not_mem_nil
    · rw [hstore, deletions, hempty]
      rfl

end ChildCrud

/-- A service with two bindings. -/
def boundTwice : Ledger Db where
  data :=
    { networks := [1]
      services := { rows := [{ id := 5, base := { networkId := 1, name := "web" } }] }
      ports :=
        { rows := [{ id := 7, base :=
          { networkId := 1, hostId := 3, portType := { number := 80, protocol := .tcp } } },
            { id := 8, base := { networkId := 1, hostId := 3, portType := { number := 443, protocol := .tcp } } }]
          nodup := by decide }
      bindings :=
        { rows := [{ id := 21, createdAt := 4, base :=
          { networkId := 1, serviceId := 5, bindingType := .port 7 none } },
            { id := 22, createdAt := 4, base := { networkId := 1, serviceId := 5, bindingType := .port 8 none } }]
          nodup := by decide } }
  drawn := [31]

/-- One of the bindings is kept and one is new. -/
def rebound : List Binding :=
  [{ id := 21, createdAt := 9, base := { networkId := 1, serviceId := 5, bindingType := .port 7 none } },
   { id := Uuid.nil, createdAt := 9, base := { networkId := 1, serviceId := 5, bindingType := .port 8 none } }]

theorem rebound_synchronises : wp (BindingService.children.saveForParent 5 rebound)
    (fun out t => BindingService.children.Synchronised boundTwice 5 rebound out t.store)
    (fun _ t => ¬ Calm { store := boundTwice } ∨ BindingService.children.Refused boundTwice 5 rebound t.store.data)
    { store := boundTwice } :=
  ChildCrud.saveForParent_synchronises (c := BindingService.children) (s := { store := boundTwice })
    { parent := by decide
      distinct := by decide
      unowned := by decide
      drawn := by decide
      nonnil := by decide
      unstored := by decide
      unknown := by decide
      enough := by decide }

end Netvisor
