/-
When the operations on entities are all or nothing, and their events tell what
they did.

An operation is a chain of statements, so it leaves something behind when one
fails after the first that wrote or published: exactly then, and for several
entities to delete also when a stored one is named twice.
-/
import Netvisor.Crud.Service
import Netvisor.Tags.Confinement

namespace Netvisor

open Failing (Planned statement within)
open Program (wp)
open Ledger
open EntityTagStorage EntityTagService

variable {δ T α : Type}

/-- Rows, links and events are as before. -/
structure Ledger.Unchanged (l l' : Ledger δ) : Prop where
  data : l'.data = l.data
  tagging : l'.tagging = l.tagging
  events : l'.events = l.events

namespace Crud

section Definitions

variable (c : Crud δ T)

/-- What became of an entity. -/
inductive Became (d d' : δ) (id : Uuid) : EntityOperation → Prop
  | created (before : c.find d id = none) (after : (c.find d' id).isSome = true) : Became d d' id .created
  | updated {row row' : T} (before : c.find d id = some row) (after : c.find d' id = some row')
    (changed : row ≠ row') :
    Became d d' id .updated
  | deleted (before : (c.find d id).isSome = true) (after : c.find d' id = none) : Became d d' id .deleted

def event (id : Uuid) (operation : EntityOperation) : Announced where
  entityType := c.entityType
  entityId := id
  operation := operation

/-- The events about an entity. -/
def eventsOf (id : Uuid) (events : List Announced) : List Announced :=
  events.filter fun e => e.entityType = c.entityType ∧ e.entityId = id

/-- Each of the entities that was created, changed or deleted has exactly one event, which says so. -/
def Tells (ids : List Uuid) (l l' : Ledger δ) : Prop :=
  ∃ news, l'.events = news ++ l.events ∧ ∀ id ∈ ids, ∀ operation, c.Became l.data l'.data id operation →
    c.eventsOf id news = [c.event id operation]

/-- A failure changes nothing, and what is done is told. -/
def Truthful (p : Writes δ α) (named : α → List Uuid) (s : Planned AnyError (Ledger δ)) : Prop :=
  wp p (fun a t => c.Tells (named a) s.store t.store) (fun _ t => s.store.Unchanged t.store) s

/-- The tags can be set after some more statements, if they are to be set. -/
def Linkable (s : Planned AnyError (Ledger δ)) (skipped : Nat) (tags : Option (List Uuid))
    (organizationId : Option Uuid) :
    Prop :=
  c.taggable = true → ∀ tagIds, tags = some tagIds → tagIds ≠ [] →
    ∀ organization, organizationId = some organization →
    CanSet { store := s.store.tagging, faults := s.faults.drop skipped } tagIds organization

/-- The entity as it is inserted. -/
def asNew (entity : T) (l : Ledger δ) : T :=
  if c.id entity = Uuid.nil then c.stamp (l.drawn.headD Uuid.nil) l.now entity else entity

end Definitions

variable {c : Crud δ T} {s t : Planned AnyError (Ledger δ)} {id : Uuid} {ids : List Uuid} {tags : Option (List Uuid)}
  {organizationId : Option Uuid} {operation : EntityOperation}

theorem eventsOf_append (id : Uuid) (events events' : List Announced) :
    c.eventsOf id (events ++ events') = c.eventsOf id events ++ c.eventsOf id events' := List.filter_append ..

theorem eventsOf_event : c.eventsOf id [c.event id operation] = [c.event id operation] := by
  simp [eventsOf, event]

theorem eventsOf_event_of_ne {i : Uuid} (h : i ≠ id) : c.eventsOf id [c.event i operation] = [] := by
  simp [eventsOf, event, h]

/-- An entity that was published about once is told of, if that is what became of it. -/
theorem tells_of_published {l l' : Ledger δ} (hevents : l'.events = c.event id operation :: l.events)
    (h : ∀ operation', c.Became l.data l'.data id operation' → operation' = operation) : c.Tells [id] l l' := by
  refine ⟨[c.event id operation], hevents, fun i hi operation' hbecame => ?_⟩
  rw [List.mem_singleton] at hi
  subst hi
  rw [h operation' hbecame]
  exact eventsOf_event

/-! ## Reads and tags -/

@[simp] theorem wp_read {f : Ledger δ → α} {Q : α → Planned AnyError (Ledger δ) → Prop}
    {E : AnyError → Planned AnyError (Ledger δ) → Prop} :
    wp (read f) Q E s ↔
      (∀ e, s.fault = some e → E e (s.next s.store)) ∧ (s.fault = none → Q (f s.store) (s.next s.store)) := by
  simp only [Ledger.read, Failing.wp_statement, Program.wp_bind, Program.wp_get, Program.wp_pure]

/-- The state after some reads. -/
def skip (s : Planned AnyError (Ledger δ)) (n : Nat) : Planned AnyError (Ledger δ) :=
  { s with faults := s.faults.drop n }

@[simp] theorem skip_store {n : Nat} : (skip s n).store = s.store := rfl

@[simp] theorem skip_faults {n : Nat} : (skip s n).faults = s.faults.drop n := rfl

theorem skip_one : s.next s.store = skip s 1 := by
  rw [skip, List.drop_one]
  rfl

theorem skip_skip {m n : Nat} : skip (skip s m) n = skip s (m + n) := by
  rw [skip, skip, skip, List.drop_drop]

theorem quiet_one {faults : List (Option AnyError)} : Quiet faults 1 ↔ faultAt faults 0 = none := by
  rw [quiet_succ]
  exact and_iff_left quiet_zero

theorem quiet_mono {faults : List (Option AnyError)} {m n : Nat} (hle : m ≤ n) (h : Quiet faults n) :
    Quiet faults m :=
  fun i hi => h i (by omega)

theorem wp_reads {Q : Unit → Planned AnyError (Ledger δ) → Prop}
    {E : AnyError → Planned AnyError (Ledger δ) → Prop} {n : Nat}
    (hE : ∀ e t, ¬ Quiet s.faults n → t.store = s.store → E e t) (hQ : Quiet s.faults n → Q () (skip s n)) :
    wp ((List.replicate n ()).forM fun _ => (read fun _ => () : Writes δ Unit)) Q E s := by
  induction n generalizing s with
  | zero =>
    rw [List.replicate_zero, List.forM, Program.wp_pure]
    exact hQ quiet_zero
  | succ n ih =>
    rw [List.replicate_succ, List.forM, Program.wp_bind, wp_read]
    rw [quiet_succ, faultAt_zero] at hQ hE
    refine ⟨fun e he => hE e _ (fun h => ?_) rfl, fun hnone => ih (fun e t hnot hstore => ?_) fun hquiet => ?_⟩
    · rw [h.1] at he
      cases he
    · exact hE e t (fun h => hnot h.2) hstore
    · rw [skip_one, skip_skip, Nat.add_comm]
      exact hQ ⟨hnone, hquiet⟩

/-- How many statements it takes to look an entity up. -/
def lookups (c : Crud δ T) (d : δ) (id : Uuid) : Nat := if (c.find d id).isSome then c.reads + 1 else 1

theorem wp_getById {Q : Option T → Planned AnyError (Ledger δ) → Prop}
    {E : AnyError → Planned AnyError (Ledger δ) → Prop}
    (hE : ∀ e t, ¬ Quiet s.faults (c.lookups s.store.data id) → t.store = s.store → E e t)
    (hmissing : c.find s.store.data id = none → Quiet s.faults 1 → Q none (skip s 1))
    (hfound : ∀ row, c.find s.store.data id = some row → Quiet s.faults (c.reads + 1) →
      Q (some row) (skip s (c.reads + 1))) :
    wp (c.getById id) Q E s := by
  rw [getById, Program.wp_bind, wp_read]
  have hfirst (e : AnyError) (he : s.fault = some e) : ¬ Quiet s.faults (c.lookups s.store.data id) := by
    unfold lookups
    intro h
    have hzero := h 0 (by split <;> omega)
    rw [faultAt_zero, he] at hzero
    cases hzero
  refine ⟨fun e he => hE e _ (hfirst e he) rfl, fun hnone => ?_⟩
  have hone : Quiet s.faults 1 := quiet_one.mpr (faultAt_zero.trans hnone)
  cases hfind : c.find s.store.data id with
  | none =>
    rw [skip_one]
    exact hmissing hfind hone
  | some row =>
    have hlookups : c.lookups s.store.data id = c.reads + 1 := by simp [lookups, hfind]
    simp only [Program.wp_bind, skip_one]
    refine wp_reads (fun e t hnot hstore => hE e t (fun h => hnot ?_) hstore) fun hquiet => ?_
    · rw [hlookups, Nat.add_comm, quiet_add] at h
      exact h.2
    · rw [Program.wp_pure, skip_skip, Nat.add_comm]
      exact hfound row hfind (Nat.add_comm _ _ ▸ quiet_add.mpr ⟨hone, hquiet⟩)

/-- The tags are set, or nothing is done. -/
theorem wp_saveTags {entity : T} :
    wp (c.saveTags entity tags organizationId)
      (fun _ t => c.Linkable s 0 tags organizationId ∧ t.store.data = s.store.data ∧ t.store.events = s.store.events)
      (fun _ t => ¬ c.Linkable s 0 tags organizationId ∧ t.store = s.store) s := by
  unfold saveTags
  split
  · next tagIds htaggable =>
    unfold Ledger.setTags
    split
    · next organization =>
      have hlinkable : c.Linkable s 0 (some tagIds) (some organization) ↔ (tagIds ≠ [] →
          CanSet { store := s.store.tagging, faults := s.faults } tagIds organization) := by
        simp [Linkable, htaggable]
      simp only [onTags, Failing.wp_within, hlinkable]
      by_cases hnil : tagIds = []
      · subst hnil
        exact ⟨fun hgiven => absurd rfl hgiven, trivial, trivial⟩
      · refine wp_setTags.mono (fun _ t hset => ⟨fun _ => ?_, trivial, trivial⟩) fun _ t hfailed => ?_
        · exact (hset.resolve_right fun h => hnil h.1).1
        · obtain ⟨hnot, hsame⟩ := hfailed
          rw [hsame]
          exact ⟨fun h => hnot (h hnil), rfl⟩
    · exact ⟨fun _ _ _ _ _ hnone => (by cases hnone), rfl, rfl⟩
  · next hnone =>
    refine ⟨fun htaggable tagIds hsome => ?_, rfl, rfl⟩
    rw [htaggable, hsome] at hnone
    exact (hnone tagIds rfl rfl).elim

theorem linkable_skip {n : Nat} (hstore : t.store.tagging = s.store.tagging) (hfaults : t.faults = s.faults.drop n) :
    c.Linkable t 0 tags organizationId ↔ c.Linkable s n tags organizationId := by
  simp only [Linkable, hstore, hfaults, List.drop_zero]

/-! ## Single statements -/

@[simp] theorem wp_onData {p : EStateM AnyError δ α} {l : Ledger δ} {Q : α → Ledger δ → Prop}
    {E : AnyError → Ledger δ → Prop} :
    wp (onData p) Q E l ↔ wp p (fun a data => Q a { l with data }) (fun e data => E e { l with data }) l.data := by
  simp only [wp, onData]
  cases p l.data <;> exact Iff.rfl

@[simp] theorem wp_publish {entityType : EntityDiscriminants} {Q : Unit → Planned AnyError (Ledger δ) → Prop}
    {E : AnyError → Planned AnyError (Ledger δ) → Prop} :
    wp (publish entityType id operation) Q E s ↔
      Q () { s with store.events := { entityType, entityId := id, operation } :: s.store.events } := Iff.rfl

theorem wp_orNew {entity : T} {Q : T → Planned AnyError (Ledger δ) → Prop}
    {E : AnyError → Planned AnyError (Ledger δ) → Prop}
    (hQ : ∀ l, s.store.Unchanged l → Q (c.asNew entity s.store) { s with store := l }) :
    wp (c.orNew entity) Q E s := by
  unfold orNew asNew at *
  by_cases hnil : c.id entity = Uuid.nil
  · simp only [hnil, beq_self_eq_true, if_true] at hQ ⊢
    exact hQ { s.store with drawn := s.store.drawn.tail } ⟨rfl, rfl, rfl⟩
  · simp only [beq_eq_false_iff_ne.mpr hnil, Bool.false_eq_true, if_false, hnil] at hQ ⊢
    exact hQ s.store ⟨rfl, rfl, rfl⟩

/-- The state after a statement that left the database as it is now. -/
structure Wrote (s t : Planned AnyError (Ledger δ)) (d : δ) : Prop where
  faults : t.faults = s.faults.drop 1
  data : t.store.data = d
  tagging : t.store.tagging = s.store.tagging
  events : t.store.events = s.store.events

/-- A statement that writes: it is refused and nothing is done, or it ran. -/
theorem wp_write {p : EStateM AnyError δ α} {Q : α → Planned AnyError (Ledger δ) → Prop}
    {E : AnyError → Planned AnyError (Ledger δ) → Prop}
    (hE : ∀ e, ¬ (Quiet s.faults 1 ∧ ∃ a d, p s.store.data = .ok a d) → E e (skip s 1))
    (hQ : ∀ a d t, Quiet s.faults 1 → p s.store.data = .ok a d → Wrote s t d → Q a t) :
    wp (statement (onData p)) Q E s := by
  rw [Failing.wp_statement, wp_onData, skip_one]
  simp only [quiet_one, faultAt_zero] at hE hQ
  refine ⟨fun e he => hE e fun h => ?_, fun hnone => ?_⟩
  · rw [h.1] at he
    cases he
  · cases hp : p s.store.data with
    | ok a d => exact (Program.wp_of_ok hp).mpr (hQ a d _ hnone hp ⟨List.drop_one.symm, rfl, rfl, rfl⟩)
    | error e d =>
      refine (Program.wp_of_error hp).mpr (hE e fun ⟨_, a, d', hok⟩ => ?_)
      rw [hp] at hok
      cases hok

theorem Ledger.Unchanged.refl (l : Ledger δ) : l.Unchanged l := ⟨rfl, rfl, rfl⟩

/-! ## Creating -/

section Calls

variable (c s tags organizationId)

/-- If the row is inserted, its tags can be set. -/
def CreatesWhole (entity : T) : Prop :=
  Quiet s.faults 1 → (∃ d, c.insert (c.asNew entity s.store) s.store.data = .ok () d) →
    c.Linkable s 1 tags organizationId

/-- If the row is looked up and changed, its tags can be set. -/
def SavesWhole (entity : T) : Prop :=
  Quiet s.faults (c.reads + 2) → (c.find s.store.data (c.id entity)).isSome = true →
    ∀ d, c.update entity s.store.data = .ok () d → d ≠ s.store.data → c.Linkable s (c.reads + 2) tags organizationId

/-- If the row is looked up and deleted, its tags are removed. -/
def DeletesWhole (id : Uuid) : Prop :=
  Quiet s.faults (c.reads + 2) → (c.find s.store.data id).isSome = true → c.taggable = true →
    Quiet s.faults (c.reads + 3)

end Calls

/-- Once the row is written: all is well if the tags can be set, or nothing was changed. -/
theorem wp_tagAndPublish {a : α} {f : α → List Uuid} {entity : T} {l : Ledger δ} (hnamed : f a = [c.id entity])
    (htagging : s.store.tagging = l.tagging)
    (hevents : s.store.events = l.events)
    (hbecame : ∀ operation', c.Became l.data s.store.data (c.id entity) operation' → operation' = operation) :
    wp (do
        c.saveTags entity tags organizationId
        publish c.entityType (c.id entity) operation
        return a)
      (fun a t => c.Tells (f a) l t.store) (fun _ t => l.Unchanged t.store) s ↔
      (s.store.data ≠ l.data → c.Linkable s 0 tags organizationId) := by
  refine Program.wp.iff ?_
  rw [Program.wp_bind]
  refine wp_saveTags.mono (fun _ t ⟨hlinkable, hdata, hpublished⟩ => ?_) fun _ t ⟨hnot, hstore⟩ => ?_
  · refine iff_of_true ?_ fun _ => hlinkable
    rw [hnamed]
    have hpublished : c.event (c.id entity) operation :: t.store.events =
        c.event (c.id entity) operation :: l.events := by
      rw [hpublished, hevents]
    exact tells_of_published hpublished fun operation' h => hbecame operation' (hdata ▸ h)
  · rw [hstore]
    constructor
    · intro hsame hchanged
      exact absurd hsame.data hchanged
    · intro h
      refine ⟨?_, htagging, hevents⟩
      by_contra hchanged
      exact hnot (h hchanged)

theorem truthful_create {entity : T} : c.Truthful (c.create entity tags organizationId)
    (fun created => [c.id created]) s ↔
    c.CreatesWhole s tags organizationId entity := by
  unfold Truthful CreatesWhole
  refine Program.wp.iff ?_
  rw [create, Program.wp_bind]
  refine wp_orNew fun l hl => ?_
  rw [Program.wp_bind]
  refine wp_write (fun e hrefused => ?_) fun _ d t hquiet hinsert hwrote => ?_
  · refine ⟨fun _ hquiet ⟨d, hinsert⟩ => ?_, fun _ => hl⟩
    rw [← hl.data] at hinsert
    exact absurd ⟨hquiet, (), d, hinsert⟩ hrefused
  · obtain ⟨hbefore, hafter⟩ := c.find_insert hinsert
    have hbefore : c.find s.store.data (c.id (c.asNew entity s.store)) = none := by
      rw [← hl.data]
      exact hbefore
    have hchanged : d ≠ s.store.data := by
      intro hsame
      rw [hsame, hbefore] at hafter
      cases hafter
    refine Program.wp_iff.mpr
      ((wp_tagAndPublish (f := fun created => [c.id created]) rfl (hwrote.tagging.trans hl.tagging)
      (hwrote.events.trans hl.events) fun operation' hbecame => ?_).trans ?_)
    · cases hbecame with
      | created => rfl
      | updated found => rw [hbefore] at found; cases found
      | deleted found => rw [hbefore] at found; cases found
    · rw [linkable_skip (hwrote.tagging.trans hl.tagging) hwrote.faults, hwrote.data]
      exact ⟨fun h _ _ => h hchanged, fun h _ => h hquiet ⟨d, hl.data ▸ hinsert⟩⟩

theorem truthful_save {entity : T} : c.Truthful (c.save entity tags organizationId) (fun _ => [c.id entity]) s ↔
    c.SavesWhole s tags organizationId entity := by
  unfold Truthful SavesWhole
  refine Program.wp.iff ?_
  rw [save, Program.wp_bind]
  have hsound (hnot : ¬ (Quiet s.faults (c.reads + 2) ∧ ∃ row, c.find s.store.data (c.id entity) = some row ∧
      ∃ d, c.update entity s.store.data = .ok () d)) {t : Planned AnyError (Ledger δ)} (hstore : t.store = s.store) :
      s.store.Unchanged t.store ↔ (Quiet s.faults (c.reads + 2) → (c.find s.store.data (c.id entity)).isSome = true →
        ∀ d, c.update entity s.store.data = .ok () d → d ≠ s.store.data →
            c.Linkable s (c.reads + 2) tags organizationId) := by
    rw [hstore]
    refine iff_of_true (Ledger.Unchanged.refl _) fun hquiet hfound d hupdate _ => ?_
    obtain ⟨row, hrow⟩ := Option.isSome_iff_exists.mp hfound
    exact absurd ⟨hquiet, row, hrow, d, hupdate⟩ hnot
  refine wp_getById (fun e t hnot hstore => hsound (fun h => hnot ?_) hstore)
    (fun hmissing _ => ?_) fun row hrow hquiet => ?_
  · rw [lookups, h.2.choose_spec.1, Option.isSome_some, if_pos rfl]
    exact quiet_mono (by omega) h.1
  · rw [Program.wp_throw]
    refine hsound (fun ⟨_, row, hrow, _⟩ => ?_) rfl
    rw [hmissing] at hrow
    cases hrow
  · rw [Program.wp_bind]
    refine wp_write (fun e hrefused => hsound (fun h => hrefused ?_) rfl) fun _ d t hlast hupdate hwrote => ?_
    · obtain ⟨hall, _, _, d, hupdate⟩ := h
      exact ⟨((quiet_add (m := c.reads + 1) (n := 1)).mp hall).2, (), d, hupdate⟩
    · have hall : Quiet s.faults (c.reads + 2) := (quiet_add (m := c.reads + 1) (n := 1)).mpr ⟨hquiet, hlast⟩
      have hfound : (c.find s.store.data (c.id entity)).isSome = true := by rw [hrow, Option.isSome_some]
      have hfaults : t.faults = s.faults.drop (c.reads + 2) := by rw [hwrote.faults, skip_faults, List.drop_drop]
      refine Program.wp_iff.mpr
        ((wp_tagAndPublish (f := fun _ => [c.id entity]) (l := s.store) rfl hwrote.tagging hwrote.events
        fun operation' hbecame => ?_).trans ?_)
      · rw [hwrote.data] at hbecame
        cases hbecame with
        | created before => rw [hrow] at before; cases before
        | updated => rfl
        | deleted before after =>
          have hafter := c.find_update hupdate hfound
          rw [after] at hafter
          cases hafter
      · rw [linkable_skip (s := s) hwrote.tagging hfaults, hwrote.data]
        refine ⟨fun h _ _ d' hupdate' hchanged => h ?_, fun h hchanged => h hall hfound d hupdate hchanged⟩
        have hok := hupdate'.symm.trans hupdate
        cases hok
        exact hchanged

/-! ## Deleting -/

/-- The tags of an entity are removed, if there is a service for them. -/
theorem wp_removeTags {Q : Unit → Planned AnyError (Ledger δ) → Prop}
    {E : AnyError → Planned AnyError (Ledger δ) → Prop}
    (hE : ∀ e t, c.taggable = true → ¬ Quiet s.faults 1 → t.store = s.store → E e t)
    (hQ : ∀ t, Quiet s.faults c.taggable.toNat → t.faults = s.faults.drop c.taggable.toNat →
      t.store.data = s.store.data →
      t.store.events = s.store.events → Q () t) : wp (c.removeTags id) Q E s := by
  unfold removeTags
  cases htaggable : c.taggable with
  | false =>
    rw [htaggable] at hQ
    exact hQ s quiet_zero rfl rfl rfl
  | true =>
    rw [htaggable] at hQ
    simp only [if_true, onTags, Failing.wp_within, EntityTagStorage.removeAllForEntity, Program.wp_bind,
      Failing.wp_statement, Program.wp_pure]
    have hfault : ({ store := s.store.tagging, faults := s.faults } : Planned AnyError Tagging).fault = s.fault := rfl
    rw [hfault]
    refine ⟨fun e he => hE e _ htaggable (fun h => ?_) rfl, fun hnone => hQ _ ?_ ?_ rfl rfl⟩
    · rw [quiet_one, faultAt_zero, he] at h
      cases h
    · exact quiet_one.mpr (faultAt_zero.trans hnone)
    · rw [Planned.next_faults]
      exact List.drop_one.symm

theorem truthful_deleteById : c.Truthful (c.deleteById id) (fun _ => [id]) s ↔ c.DeletesWhole s id := by
  unfold Truthful DeletesWhole
  refine Program.wp.iff ?_
  rw [deleteById, Program.wp_bind]
  have hsound (hnot : ¬ (Quiet s.faults (c.reads + 2) ∧ (c.find s.store.data id).isSome = true))
      {t : Planned AnyError (Ledger δ)} (hstore : t.store = s.store) : s.store.Unchanged t.store ↔
        (Quiet s.faults (c.reads + 2) → (c.find s.store.data id).isSome = true → c.taggable = true →
          Quiet s.faults (c.reads + 3)) := by
    rw [hstore]
    exact iff_of_true (Ledger.Unchanged.refl _) fun hquiet hfound _ => absurd ⟨hquiet, hfound⟩ hnot
  refine wp_getById (fun e t hnot hstore => hsound (fun h => hnot ?_) hstore)
    (fun hmissing _ => ?_) fun row hrow hquiet => ?_
  · rw [lookups, h.2, if_pos rfl]
    exact quiet_mono (by omega) h.1
  · rw [Program.wp_throw]
    refine hsound (fun h => ?_) rfl
    rw [hmissing] at h
    cases h.2
  · rw [Program.wp_bind]
    refine wp_write (fun e hrefused => hsound (fun h => hrefused ?_) rfl) fun _ d t hlast hdelete hwrote => ?_
    · exact ⟨((quiet_add (m := c.reads + 1) (n := 1)).mp h.1).2, (), _, rfl⟩
    · have hall : Quiet s.faults (c.reads + 2) := (quiet_add (m := c.reads + 1) (n := 1)).mpr ⟨hquiet, hlast⟩
      have hfound : (c.find s.store.data id).isSome = true := by rw [hrow, Option.isSome_some]
      have hgone : c.find d id = none := by
        cases hdelete
        exact c.find_delete List.mem_cons_self
      have hfaults : t.faults = s.faults.drop (c.reads + 2) := by rw [hwrote.faults, skip_faults, List.drop_drop]
      rw [Program.wp_bind]
      refine wp_removeTags (fun e u htaggable hnot hstore => ?_) fun u hremoved _ hdata hevents => ?_
      · rw [hstore]
        refine iff_of_false (fun hsame => ?_) fun h => hnot ?_
        · have hsame : d = s.store.data := hwrote.data.symm.trans hsame.data
          rw [hsame, hrow] at hgone
          cases hgone
        · rw [hfaults]
          exact ((quiet_add (m := c.reads + 2) (n := 1)).mp (h hall hfound htaggable)).2
      · have hpublished : c.event id .deleted :: u.store.events = c.event id .deleted :: s.store.events := by
          rw [hevents, hwrote.events, skip_store]
        refine iff_of_true (tells_of_published hpublished fun operation' hbecame => ?_) fun _ _ htaggable => ?_
        · have hafter : c.find u.store.data id = none := by rw [hdata, hwrote.data, hgone]
          cases hbecame with
          | created before => rw [hrow] at before; cases before
          | updated before after =>
            have after : c.find u.store.data id = some _ := after
            rw [hafter] at after
            cases after
          | deleted => rfl
        · rw [hfaults, htaggable] at hremoved
          exact (quiet_add (m := c.reads + 2) (n := 1)).mpr ⟨hall, hremoved⟩

/-! ## Deleting several -/

section Several

variable (c : Crud δ T)

/-- Whether an entity is stored. -/
def stored (d : δ) (id : Uuid) : Bool := (c.find d id).isSome

/-- How many statements there are about one of several entities to delete. -/
def announcement (d : δ) (id : Uuid) : Nat := if c.stored d id then c.reads + 1 + c.taggable.toNat else 1

def announcements (d : δ) (ids : List Uuid) : Nat := (ids.map (c.announcement d)).sum

/-- Up to the first that is stored. -/
def opening (d : δ) : List Uuid → List Uuid
  | [] => []
  | id :: ids => id :: if c.stored d id then [] else opening d ids

/-- If any is stored and announced, then they all are, once each, and deleted. -/
def DeletesAllWhole (s : Planned AnyError (Ledger δ)) (ids : List Uuid) : Prop :=
  (∃ id ∈ ids, c.stored s.store.data id = true) →
  Quiet s.faults (c.announcements s.store.data (c.opening s.store.data ids)) →
    Quiet s.faults (c.announcements s.store.data ids + 1) ∧ (ids.filter (c.stored s.store.data)).Nodup

end Several

theorem announcements_cons {d : δ} : c.announcements d (id :: ids) = c.announcement d id + c.announcements d ids := by
  rw [announcements, List.map_cons, List.sum_cons, announcements]

theorem announcements_opening_le {d : δ} : c.announcements d (c.opening d ids) ≤ c.announcements d ids := by
  induction ids with
  | nil => exact Nat.le_refl _
  | cons id ids ih =>
    rw [opening, announcements_cons, announcements_cons]
    split
    · rw [announcements, List.map_nil, List.sum_nil]
      omega
    · omega

theorem wp_announceDeleted {Q : Unit → Planned AnyError (Ledger δ) → Prop}
    {E : AnyError → Planned AnyError (Ledger δ) → Prop}
    (hE : ∀ e t, ¬ Quiet s.faults (c.announcement s.store.data id) → t.store = s.store → E e t)
    (hmissing : c.find s.store.data id = none → Quiet s.faults 1 → Q () (skip s 1))
    (hfound : c.stored s.store.data id = true → Quiet s.faults (c.announcement s.store.data id) → ∀ t,
      t.faults = s.faults.drop (c.announcement s.store.data id) → t.store.data = s.store.data →
      t.store.events = c.event id .deleted :: s.store.events → Q () t) : wp (c.announceDeleted id) Q E s := by
  rw [announceDeleted, Program.wp_bind]
  refine wp_getById (fun e t hnot hstore => hE e t (fun h => hnot ?_) hstore) hmissing fun row hrow hquiet => ?_
  · unfold announcement stored at h
    unfold lookups
    split
    · next hsome =>
      rw [if_pos hsome] at h
      exact quiet_mono (by omega) h
    · next hnone =>
      rw [if_neg hnone] at h
      exact h
  · have hsome : c.stored s.store.data id = true := by rw [stored, hrow, Option.isSome_some]
    have hcount : c.announcement s.store.data id = c.reads + 1 + c.taggable.toNat := if_pos hsome
    rw [hcount] at hE hfound
    rw [Program.wp_bind]
    refine wp_removeTags (fun e t htaggable hnot hstore => hE e t (fun h => hnot ?_) hstore)
      fun t hremoved hfaults hdata hevents => ?_
    · rw [htaggable] at h
      exact (quiet_add.mp h).2
    · rw [wp_publish]
      refine hfound hsome (quiet_add.mpr ⟨hquiet, hremoved⟩) _ ?_ hdata ?_
      · rw [← List.drop_drop]
        exact hfaults
      · change c.event id .deleted :: t.store.events = _
        rw [hevents, skip_store]

theorem wp_announceAll :
    wp (ids.forM c.announceDeleted)
      (fun _ t => Quiet s.faults (c.announcements s.store.data ids) ∧
        t.faults = s.faults.drop (c.announcements s.store.data ids) ∧ t.store.data = s.store.data ∧
        t.store.events = ((ids.filter (c.stored s.store.data)).map fun id => c.event id .deleted).reverse ++
          s.store.events ∧
        ((∃ id ∈ ids, c.stored s.store.data id = true) ∨ t.store.tagging = s.store.tagging))
      (fun _ t => ¬ Quiet s.faults (c.announcements s.store.data ids) ∧
        (∃ news, t.store.events = news ++ s.store.events) ∧
        (s.store.Unchanged t.store ↔ ¬ ((∃ id ∈ ids, c.stored s.store.data id = true) ∧
          Quiet s.faults (c.announcements s.store.data (c.opening s.store.data ids))))) s := by
  induction ids generalizing s with
  | nil =>
    rw [List.forM, Program.wp_pure]
    exact ⟨quiet_zero, rfl, rfl, rfl, .inr rfl⟩
  | cons id ids ih =>
    rw [List.forM, Program.wp_bind]
    simp only [announcements_cons, opening, quiet_add]
    refine wp_announceDeleted (fun e t hnot hstore => ⟨fun h => hnot h.1, ⟨[], by rw [hstore]; rfl⟩, ?_⟩)
      (fun hmissing hquiet => ?_) fun hfound hquiet t hfaults hdata hevents => ?_
    · rw [hstore]
      exact iff_of_true (Ledger.Unchanged.refl _) fun h => hnot h.2.1
    · have hnot : c.stored s.store.data id = false := by rw [stored, hmissing, Option.isSome_none]
      have hone : c.announcement s.store.data id = 1 := by rw [announcement, hnot, if_neg Bool.false_ne_true]
      have hids : (∃ i ∈ id :: ids, c.stored s.store.data i = true) ↔ ∃ i ∈ ids, c.stored s.store.data i = true := by
        simp [hnot]
      rw [hone, hnot, hids, if_neg Bool.false_ne_true]
      simp only [hquiet, true_and, List.filter_cons, hnot, Bool.false_eq_true, if_false]
      refine (ih (s := skip s 1)).mono (fun _ t hran => ?_) fun _ t hfailed => hfailed
      obtain ⟨hrest, hfaults, hdone⟩ := hran
      exact ⟨hrest, by rw [hfaults, skip_faults, List.drop_drop, skip_store], hdone⟩
    · have hids : ∃ i ∈ id :: ids, c.stored s.store.data i = true := ⟨id, List.mem_cons_self, hfound⟩
      simp only [hids, hquiet, true_and, hfound, if_true, List.filter_cons, true_or, and_true]
      refine (ih (s := t)).mono (fun _ u hran => ?_) fun _ u hstopped => ?_
      · obtain ⟨hrest, hfaults', hdone, hpublished, -⟩ := hran
        rw [hdata, hfaults] at hrest hfaults'
        rw [hdata] at hdone hpublished
        refine ⟨hrest, by rw [hfaults', List.drop_drop], hdone, ?_⟩
        rw [hpublished, hevents, List.map_cons, List.reverse_cons, List.append_assoc, List.singleton_append]
      · obtain ⟨hfailed, ⟨news, hnews⟩, -⟩ := hstopped
        rw [hdata, hfaults] at hfailed
        rw [hevents] at hnews
        refine ⟨hfailed, ⟨news ++ [c.event id .deleted], by rw [hnews, List.append_assoc, List.singleton_append]⟩,
          iff_of_false (fun hsame => ?_) fun h => h quiet_zero⟩
        -- an event is there that was not
        have hlength := congrArg List.length (hnews.symm.trans hsame.events)
        simp only [List.length_append, List.length_cons] at hlength
        omega

theorem eventsOf_map (ids : List Uuid) :
    c.eventsOf id (ids.map fun i => c.event i operation) = List.replicate (ids.count id) (c.event id operation) := by
  induction ids with
  | nil => rfl
  | cons i ids ih =>
    rw [List.map_cons, ← List.singleton_append, eventsOf_append, ih]
    by_cases hi : i = id
    · rw [hi, eventsOf_event, List.count_cons_self, List.replicate_succ, List.singleton_append]
    · rw [eventsOf_event_of_ne hi, List.count_cons_of_ne hi, List.nil_append]

/-- Of each stored entity there is one event exactly when none is named twice. -/
theorem tells_deleted_iff {l l' : Ledger δ}
    (hevents : l'.events = ((ids.filter (c.stored l.data)).map fun id => c.event id .deleted).reverse ++ l.events)
    (hgone : ∀ id ∈ ids, c.find l'.data id = none) :
    c.Tells ids l l' ↔ (ids.filter (c.stored l.data)).Nodup := by
  rw [← List.map_reverse] at hevents
  have hmem (id : Uuid) : id ∈ (ids.filter (c.stored l.data)).reverse ↔ id ∈ ids ∧ c.stored l.data id = true := by
    rw [List.mem_reverse, List.mem_filter]
  rw [← List.nodup_reverse, List.nodup_iff_count_eq_one]
  constructor
  · rintro ⟨news, hnews, htold⟩ id hid
    obtain ⟨hnamed, hstored⟩ := (hmem id).mp hid
    have hone := htold id hnamed .deleted (.deleted hstored (hgone id hnamed))
    rw [List.append_cancel_right (hnews.symm.trans hevents), eventsOf_map] at hone
    simpa using congrArg List.length hone
  · intro honce
    refine ⟨_, hevents, fun id hnamed operation hbecame => ?_⟩
    have hgone := hgone id hnamed
    cases hbecame with
    | created before after => rw [hgone] at after; cases after
    | updated before after => rw [hgone] at after; cases after
    | deleted before =>
      rw [eventsOf_map, honce id ((hmem id).mpr ⟨hnamed, before⟩)]
      rfl

theorem truthful_deleteMany : c.Truthful (c.deleteMany ids) (fun _ => ids) s ↔ c.DeletesAllWhole s ids := by
  unfold Truthful DeletesAllWhole
  refine Program.wp.iff ?_
  unfold deleteMany
  split
  · next hempty =>
    rw [List.isEmpty_iff] at hempty
    subst hempty
    exact iff_of_true ⟨[], rfl, fun _ hid => absurd hid List.not_mem_nil⟩ fun ⟨_, hid, _⟩ =>
      absurd hid List.not_mem_nil
  rw [Program.wp_bind]
  refine wp_announceAll.mono (fun _ t ⟨hall, hfaults, hdata, hevents, htagging⟩ => ?_) fun _ t ⟨hnot, _, hsame⟩ => ?_
  · have hran {d : δ} {n : Nat} (hok : (do
        let d ← get
        set (c.delete ids d)
        return (ids.dedup.filter fun id => (c.find d id).isSome).length : EStateM AnyError δ Nat) t.store.data =
          .ok n d) :
        d = c.delete ids s.store.data := by
      cases hok
      rw [hdata]
    refine wp_write (fun e hrefused => ?_) fun n d u hlast hok hwrote => ?_
    · rw [skip_store]
      by_cases hstored : ∃ id ∈ ids, c.stored s.store.data id = true
      · refine iff_of_false (fun hsame => ?_) fun h => hrefused ⟨?_, _, _, rfl⟩
        · obtain ⟨id, hid, hstored⟩ := hstored
          have hnone : ((ids.filter (c.stored s.store.data)).map fun id => c.event id .deleted).reverse = [] :=
            List.append_cancel_right (hevents.symm.trans hsame.events)
          rw [List.reverse_eq_nil_iff, List.map_eq_nil_iff, List.filter_eq_nil_iff] at hnone
          exact hnone id hid hstored
        · rw [hfaults]
          exact (quiet_add.mp (h hstored (quiet_mono announcements_opening_le hall)).1).2
      · have hnone : ids.filter (c.stored s.store.data) = [] :=
          List.filter_eq_nil_iff.mpr fun id hid hstored' => hstored ⟨id, hid, hstored'⟩
        rw [hnone] at hevents
        exact iff_of_true ⟨hdata, htagging.resolve_left hstored, hevents⟩ fun h => absurd h hstored
    · have hgone (id : Uuid) (hid : id ∈ ids) : c.find u.store.data id = none := by
        rw [hwrote.data, hran hok]
        exact c.find_delete hid
      rw [tells_deleted_iff (hwrote.events.trans hevents) hgone]
      by_cases hstored : ∃ id ∈ ids, c.stored s.store.data id = true
      · rw [hfaults] at hlast
        exact ⟨fun honce _ _ => ⟨quiet_add.mpr ⟨hall, hlast⟩, honce⟩,
          fun h => (h hstored (quiet_mono announcements_opening_le hall)).2⟩
      · have hnone : ids.filter (c.stored s.store.data) = [] :=
          List.filter_eq_nil_iff.mpr fun id hid hstored' => hstored ⟨id, hid, hstored'⟩
        rw [hnone]
        exact iff_of_true List.nodup_nil fun h => absurd h hstored
  · rw [hsame]
    constructor
    · intro hunopened hstored hopening
      exact absurd ⟨hstored, hopening⟩ hunopened
    · rintro h ⟨hstored, hopening⟩
      exact hnot (quiet_add.mp (h hstored hopening).1).1

end Crud

end Netvisor
