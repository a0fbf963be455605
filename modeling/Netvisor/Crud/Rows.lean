/-
Entities with a row in one table, and what the operations of the system on
such an entity do to the database, whichever statement fails.

The system has no organization, so what it saves has its tags left alone.
-/
import Netvisor.Crud.Truth

namespace Netvisor

open Failing (Planned statement)
open Program (wp)
open Ledger

variable {δ T : Type}

/-- A table of a database. -/
structure Rows (δ : Type) {T : Type} (key : T → Uuid) where
  name : String
  table : δ → Table T key
  put : Table T key → δ → δ
  table_put : ∀ t d, table (put t d) = t
  put_table : ∀ d, put (table d) d = d
  put_put : ∀ t t' d, put t (put t' d) = put t d

namespace Rows

variable {key : T → Uuid} (rows : Rows δ key) (missing : T → δ → Option AnyError)

/-- `INSERT`, unless what the row refers to is missing. -/
def insert (entity : T) : EStateM AnyError δ Unit := do
  let d ← get
  match (rows.table d).insert entity, missing entity d with
  | none, _ =>
    throw { message := "A record with these values already exists (" ++ rows.name ++ "_pkey)", validation := true }
  | some _, some e => throw e
  | some table, none => set (rows.put table d)

/-- `UPDATE`. -/
def update (entity : T) (d : δ) : δ := rows.put ((rows.table d).update entity) d

variable {rows missing} {entity : T} {d d' : δ}

theorem insert_eq_ok (h : rows.insert missing entity d = .ok () d') :
    ∃ table, (rows.table d).insert entity = some table ∧ d' = rows.put table d := by
  have hwp : wp (rows.insert missing entity) (fun _ d' => ∃ table, (rows.table d).insert entity = some table ∧
      d' = rows.put table d) (fun _ _ => True) d := by
    simp only [insert, Program.wp_bind, Program.wp_get]
    split
    · trivial
    · trivial
    · next table hinsert _ => exact ⟨table, hinsert, rfl⟩
  exact (Program.wp_of_ok h).mp hwp

@[simp] theorem table_update : rows.table (rows.update entity d) = (rows.table d).update entity := rows.table_put ..

/-- Updating rows one after another. -/
theorem foldl_update {f : T → T} (hf : ∀ x, key (f x) = key x) (xs : List T) [DecidableEq T]
    (hmem : ∀ x ∈ xs, x ∈ (rows.table d).rows) (hnodup : (xs.map key).Nodup) :
    xs.foldl (fun d x => rows.update (f x) d) d = rows.put ((rows.table d).modify (fun x => if x ∈ xs then f x else x)
      (fun x => by split <;> [exact hf x; rfl])) d := by
  rw [← Table.foldl_update hf xs hmem hnodup]
  clear hmem hnodup
  induction xs generalizing d with
  | nil => exact (rows.put_table d).symm
  | cons x xs ih => rw [List.foldl_cons, ih, table_update, List.foldl_cons, update, rows.put_put]

/-- An entity that is kept in the table, with tags; deleting leaves the rows with other ids. -/
def crud (rows : Rows δ key) (missing : T → δ → Option AnyError) (entityType : EntityDiscriminants)
    (display : T → String)
    (stamp : Uuid → DateTime → T → T) (delete : List Uuid → δ → δ)
    (not_mem_delete : ∀ {ids d r}, r ∈ (rows.table (delete ids d)).rows → key r ∉ ids) : Crud δ T where
  entityType := entityType
  tableName := rows.name
  display := display
  id := key
  stamp := stamp
  taggable := true
  -- its tags
  reads := 1
  find d id := (rows.table d).get id
  insert := rows.insert missing
  update entity := modify (rows.update entity)
  delete := delete
  find_insert h := by
    obtain ⟨table, hinsert, rfl⟩ := insert_eq_ok h
    rw [rows.table_put, Table.get_insert hinsert, if_pos rfl]
    exact ⟨Table.get_eq_none.mpr (Table.insert_eq_some hinsert).2, rfl⟩
  find_update h hfound := by
    cases h
    rw [table_update, Table.get_update, if_pos rfl, Option.isSome_map]
    exact hfound
  find_delete hi := Table.get_eq_none.mpr fun _ hr hkey => not_mem_delete hr (hkey ▸ hi)

end Rows

namespace Crud

/-- `get_all` of the service: the rows, then their tags. -/
def getAll (c : Crud δ T) (select : δ → List T) : Writes δ (List T) := do
  let entities ← read fun l => select l.data
  (List.replicate c.taggable.toNat ()).forM fun _ => read fun _ => ()
  return entities

variable {c : Crud δ T} {s : Planned AnyError (Ledger δ)} {id : Uuid}

/-- No statement is to fail. -/
def Calm (s : Planned AnyError (Ledger δ)) : Prop := s.faults = []

theorem Calm.quiet (h : Calm s) {n : Nat} : Quiet s.faults n := by
  intro i _
  rw [h]
  rfl

theorem wp_getAll {select : δ → List T} {Q : List T → Planned AnyError (Ledger δ) → Prop}
    {E : AnyError → Planned AnyError (Ledger δ) → Prop} (hE : ∀ e t, ¬ Calm s → t.store = s.store → E e t)
    (hQ : ∀ t, (Calm s → Calm t) → t.store = s.store → Q (select s.store.data) t) : wp (c.getAll select) Q E s := by
  rw [getAll, Program.wp_bind, wp_read]
  refine ⟨fun e he => hE e _ (fun hcalm => ?_) rfl, fun _ => ?_⟩
  · have hquiet := hcalm.quiet (n := 1) 0 (by omega)
    rw [faultAt_zero, he] at hquiet
    cases hquiet
  · rw [Program.wp_bind]
    refine wp_reads (fun e t hnot hstore => hE e t (fun hcalm => hnot ?_) hstore) fun _ => ?_
    · have hcalm : Calm (s.next s.store) := by rw [Calm, Planned.next_faults, hcalm]; rfl
      exact hcalm.quiet
    · rw [Program.wp_pure]
      refine hQ _ (fun hcalm => ?_) rfl
      rw [Calm, skip_faults, Planned.next_faults, hcalm]
      exact List.drop_nil

/-- A delete by id: it fails before the row is deleted or after, and not at all if the row is there and no statement fails. -/
theorem wp_deleteById {Q : Unit → Planned AnyError (Ledger δ) → Prop}
    {E : AnyError → Planned AnyError (Ledger δ) → Prop}
    (hE : ∀ e t, ¬ (Calm s ∧ (c.find s.store.data id).isSome = true) → t.store = s.store → E e t)
    (hlate : ∀ e t, ¬ Calm s → t.store.data = c.delete [id] s.store.data → E e t)
    (hQ : ∀ t, (Calm s → Calm t) → t.store.data = c.delete [id] s.store.data → Q () t) :
    wp (c.deleteById id) Q E s := by
  have hdrop {t : Planned AnyError (Ledger δ)} {n : Nat} (hfaults : t.faults = s.faults.drop n) (hcalm : Calm s) :
      Calm t := by
    rw [Calm, hfaults, hcalm, List.drop_nil]
  rw [deleteById, Program.wp_bind]
  refine wp_getById (fun e t hnot hstore => hE e t (fun h => hnot h.1.quiet) hstore)
    (fun hmissing _ => ?_) fun row hrow _ => ?_
  · rw [Program.wp_throw]
    refine hE _ _ (fun h => ?_) rfl
    rw [hmissing] at h
    cases h.2
  · rw [Program.wp_bind]
    refine wp_write (fun e hrefused => hE e _ (fun h => hrefused ⟨?_, (), _, rfl⟩) rfl) fun _ d t _ hdelete hwrote =>
      ?_
    · exact Calm.quiet (hdrop (skip_faults (n := c.reads + 1)) h.1)
    · cases hdelete
      have hfaults : t.faults = s.faults.drop (c.reads + 2) := by rw [hwrote.faults, skip_faults, List.drop_drop]
      rw [Program.wp_bind]
      refine wp_removeTags (fun e u _ hnot hstore => ?_) fun u _ hfaults' hdata _ => ?_
      · refine hlate e u (fun hcalm => hnot (hdrop hfaults hcalm).quiet) ?_
        rw [hstore, hwrote.data]
        rfl
      · refine hQ _ (fun hcalm => hdrop (n := c.reads + 2 + c.taggable.toNat) ?_ hcalm) ?_
        · rw [← List.drop_drop, ← hfaults]
          exact hfaults'
        · exact hdata.trans hwrote.data

/-- A save by the system, which fails before the row is written or not at all. -/
theorem wp_save {entity : T} {tags : Option (List Uuid)} {Q : T → Planned AnyError (Ledger δ) → Prop}
    {E : AnyError → Planned AnyError (Ledger δ) → Prop} {d : δ}
    (hupdate : c.update entity s.store.data = .ok () d)
    (hE : ∀ e t, ¬ (Calm s ∧ (c.find s.store.data (c.id entity)).isSome = true) → t.store = s.store → E e t)
    (hQ : ∀ t, (Calm s → Calm t) → t.store.data = d → Q entity t) : wp (c.save entity tags none) Q E s := by
  have hdrop {t : Planned AnyError (Ledger δ)} {n : Nat} (hfaults : t.faults = s.faults.drop n) (hcalm : Calm s) :
      Calm t := by
    rw [Calm, hfaults, hcalm, List.drop_nil]
  rw [save, Program.wp_bind]
  refine wp_getById (fun e t hnot hstore => hE e t (fun h => hnot h.1.quiet) hstore)
    (fun hmissing _ => ?_) fun row hrow _ => ?_
  · rw [Program.wp_throw]
    refine hE _ _ (fun h => ?_) rfl
    rw [hmissing] at h
    cases h.2
  · rw [Program.wp_bind]
    refine wp_write (fun e hrefused =>
      hE e _ (fun h => hrefused ⟨?_, (), _, hupdate⟩) rfl) fun _ d' t _ hupdate' hwrote => ?_
    · exact Calm.quiet (hdrop (skip_faults (n := c.reads + 1)) h.1)
    · have hd : d' = d := by
        have hok := hupdate'.symm.trans hupdate
        cases hok
        rfl
      have hfaults : t.faults = s.faults.drop (c.reads + 2) := by rw [hwrote.faults, skip_faults, List.drop_drop]
      have htags : c.saveTags entity tags none = return () := by
        unfold saveTags Ledger.setTags
        split <;> rfl
      rw [htags]
      exact hQ _ (fun hcalm => hdrop hfaults hcalm) (hwrote.data.trans hd)

/-! ## Loops -/

/-- For each element a step of the database, which a failure may leave undone or done; it does not fail if the element is
`ready` and no statement fails. -/
def Stepwise {α : Type} (body : α → Writes δ Unit) (step : δ → α → δ) (ready : δ → α → Prop) : Prop :=
  ∀ x s, wp (body x) (fun _ t => (Calm s → Calm t) ∧ t.store.data = step s.store.data x)
    (fun _ t => ¬ (Calm s ∧ ready s.store.data x) ∧
      (t.store.data = s.store.data ∨ t.store.data = step s.store.data x)) s

/-- Each element is ready when its turn comes. -/
def AllReady {α : Type} (step : δ → α → δ) (ready : δ → α → Prop) : δ → List α → Prop
  | _, [] => True
  | d, x :: xs => ready d x ∧ AllReady step ready (step d x) xs

theorem Stepwise.forM {α : Type} {body : α → Writes δ Unit} {step : δ → α → δ} {ready : δ → α → Prop}
    (h : Stepwise body step ready) (xs : List α) (s : Planned AnyError (Ledger δ)) :
    wp (xs.forM body) (fun _ t => (Calm s → Calm t) ∧ t.store.data = xs.foldl step s.store.data)
      (fun _ t => ¬ (Calm s ∧ AllReady step ready s.store.data xs) ∧
        ∃ done, done <+: xs ∧ t.store.data = done.foldl step s.store.data) s := by
  induction xs generalizing s with
  | nil =>
    rw [List.forM, Program.wp_pure]
    exact ⟨fun h => h, rfl⟩
  | cons x xs ih =>
    rw [List.forM, Program.wp_bind]
    refine (h x s).mono (fun _ t hran => ?_) fun _ t hfailed => ?_
    · obtain ⟨hcalm, hstep⟩ := hran
      refine (ih t).mono (fun _ u hran => ?_) fun _ u hfailed => ?_
      · obtain ⟨hcalm', hrest⟩ := hran
        refine ⟨fun hs => hcalm' (hcalm hs), ?_⟩
        rw [hrest, hstep, List.foldl_cons]
      · obtain ⟨hnot, done, hdone, hrest⟩ := hfailed
        refine ⟨fun hs => hnot ⟨hcalm hs.1, ?_⟩, x :: done, (List.prefix_cons_inj x).mpr hdone, ?_⟩
        · rw [hstep]
          exact hs.2.2
        · rw [hrest, hstep, List.foldl_cons]
    · obtain ⟨hnot, hstep⟩ := hfailed
      refine ⟨fun hs => hnot ⟨hs.1, hs.2.1⟩, ?_⟩
      rcases hstep with hstep | hstep
      · exact ⟨[], List.nil_prefix, hstep⟩
      · exact ⟨[x], (List.prefix_cons_inj x).mpr List.nil_prefix, hstep⟩

theorem stepwise_deleteById : Stepwise c.deleteById (fun d id => c.delete [id] d) fun d id =>
    (c.find d id).isSome = true :=
  fun _ _ => wp_deleteById (fun _ _ hnot hstore => ⟨hnot, .inl (by rw [hstore])⟩)
    (fun _ _ hnot hdata => ⟨fun h => hnot h.1, .inr hdata⟩) fun _ hcalm hdata => ⟨hcalm, hdata⟩

end Crud

end Netvisor
