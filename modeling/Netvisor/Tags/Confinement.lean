/-
What the endpoints for tags may change: the assignments of the entities of the
caller's organization, in networks the caller may access.

The tag is looked up and compared with the caller's organization, the entity is
not. And a failing statement leaves what was added before it when a tag is
added to several entities.
-/
import Netvisor.Auth.AccountsFacts
import Netvisor.Lib.Transition
import Netvisor.Tags.Service

namespace Netvisor

open Failing (Planned AllOrNothing ReadsOnly)
open Program (wp)
open Transition (Every Along Visits)

namespace Tagging

variable {s : Tagging} {x entityTag : EntityTag} {Q : Unit → Tagging → Prop} {E : AnyError → Tagging → Prop}

/-- The assignment is stored. -/
def Assigned (s : Tagging) (x : EntityTag) : Prop := x ∈ s.entityTags.rows

instance (s : Tagging) (x : EntityTag) : Decidable (s.Assigned x) := inferInstanceAs (Decidable (_ ∈ _))

/-- The tag is there, and of the organization. -/
def HasTag (s : Tagging) (organizationId tagId : Uuid) : Prop :=
  ∃ tag, s.tags.get tagId = some tag ∧ tag.organizationId = organizationId

theorem HasTag.isSome {organizationId tagId : Uuid} (h : s.HasTag organizationId tagId) :
    (s.tags.get tagId).isSome = true := by
  obtain ⟨tag, htag, -⟩ := h
  rw [htag]
  rfl

/-- The assignments of two states agree. -/
def SameAssignments (s t : Tagging) : Prop := ∀ x, t.Assigned x ↔ s.Assigned x

/-- The same tags, and the assignment added. -/
def Adds (x : EntityTag) (s t : Tagging) : Prop := t.tags = s.tags ∧ ∀ y, t.Assigned y ↔ s.Assigned y ∨ y = x

/-- A row is added, or was there. -/
theorem wp_createEntityTag (htag : (s.tags.get entityTag.tagId).isSome = true) :
    wp (createEntityTag entityTag) (fun _ t => ¬ s.Assigned entityTag ∧ Adds entityTag s t)
      (fun e _ => s.Assigned entityTag ∧ e.contains "already exists" = true) s := by
  simp only [createEntityTag, Program.wp_bind, Program.wp_get]
  cases hinsert : s.entityTags.insert entityTag with
  | none =>
    obtain ⟨y, hy, rfl⟩ := Table.insert_eq_none.mp hinsert
    exact ⟨hy, by decide⟩
  | some entityTags =>
    obtain ⟨hrows, hnew⟩ := Table.insert_eq_some hinsert
    simp only [htag, if_true, Program.wp_set]
    refine ⟨fun hstored => hnew _ hstored rfl, rfl, fun y => ?_⟩
    simp only [Assigned, hrows, List.mem_append, List.mem_singleton]

/-- What passes the filter is deleted. -/
theorem wp_deleteByFilter {p : EntityTag → Bool} {R : Nat → Tagging → Prop} :
    wp (deleteByFilter p) R E s ↔
      R (s.entityTags.rows.filter p).length { s with entityTags := s.entityTags.filter fun x => !p x } := Iff.rfl

end Tagging

/-! ## The services -/

namespace EntityTagService

open Tagging

variable {s : Planned AnyError Tagging} {tagId organizationId : Uuid}

theorem wp_inContext {α : Type} {context : String} {p : TagStore α} {Q : α → Planned AnyError Tagging → Prop}
    {E : AnyError → Planned AnyError Tagging → Prop} :
    wp (inContext context p) Q E s ↔ wp p Q (fun e => E { message := context ++ ": " ++ e.message }) s :=
  Program.wp_mapError

/-- Whether the tag passes is decided by the tag alone, unless the lookup fails. -/
theorem wp_validateTag {Q : Unit → Planned AnyError Tagging → Prop} {E : AnyError → Planned AnyError Tagging → Prop}
    (hE : ∀ e, ¬ (s.fault = none ∧ s.store.HasTag organizationId tagId) → E e (s.next s.store))
    (hQ : s.fault = none → s.store.HasTag organizationId tagId → Q () (s.next s.store)) :
    wp (validateTag tagId organizationId) Q E s := by
  simp only [validateTag, Program.wp_bind, wp_inContext, Failing.wp_statement, Program.wp_get, Program.wp_pure]
  refine ⟨fun e he => hE _ fun h => by simp [h.1] at he, fun hnone => ?_⟩
  cases htag : s.store.tags.get tagId with
  | none =>
    refine hE _ fun h => ?_
    obtain ⟨-, tag, htag', -⟩ := h
    rw [htag] at htag'
    cases htag'
  | some tag =>
    simp only [bne_iff_ne, ne_eq, Program.wp_ite, Program.wp_throw, Program.wp_pure]
    refine ⟨fun hother => hE _ fun h => ?_, fun hsame => ?_⟩
    · obtain ⟨-, tag', htag', horganization⟩ := h
      rw [htag] at htag'
      cases htag'
      exact hother horganization
    · exact hQ hnone ⟨tag, htag, not_not.mp hsame⟩

end EntityTagService

/-! ## Adding to several entities -/

/-- How the statement at the position fails. -/
def faultAt (faults : List (Option AnyError)) (i : Nat) : Option AnyError := faults[i]?.join

/-- The statement at the position fails, and not as if the row were there already. -/
def Strikes (faults : List (Option AnyError)) (i : Nat) : Prop :=
  ∃ e, faultAt faults i = some e ∧ e.contains "already exists" = false

/-- The entity is added to before a statement fails. -/
def Reached (faults : List (Option AnyError)) (entityIds : List Uuid) (entityId : Uuid) : Prop :=
  ∃ i : Nat, entityIds[i]? = some entityId ∧ faultAt faults i = none ∧ ∀ j < i, ¬ Strikes faults j

section Loop

variable {s : Planned AnyError Tagging} {faults : List (Option AnyError)} {entityId : Uuid} {entityIds : List Uuid}
  {entityType : EntityDiscriminants} {tagId : Uuid}

theorem faultAt_zero {σ : Type} {s : Planned AnyError σ} : faultAt s.faults 0 = s.fault := by
  rw [faultAt, ← List.head?_eq_getElem?]
  rfl

theorem faultAt_succ {i : Nat} : faultAt faults (i + 1) = faultAt faults.tail i := by
  cases faults <;> simp [faultAt]

theorem strikes_succ {i : Nat} : Strikes faults (i + 1) ↔ Strikes faults.tail i := by
  simp only [Strikes, faultAt_succ]

theorem not_reached_nil : ¬ Reached faults [] entityId := by
  rintro ⟨i, hi, -⟩
  cases hi

theorem reached_cons {id : Uuid} : Reached faults (id :: entityIds) entityId ↔
    (faultAt faults 0 = none ∧ entityId = id) ∨ (¬ Strikes faults 0 ∧ Reached faults.tail entityIds entityId) := by
  constructor
  · rintro ⟨i, hi, hfault, hbefore⟩
    cases i with
    | zero => exact .inl ⟨hfault, (Option.some.inj hi).symm⟩
    | succ i =>
      refine .inr ⟨hbefore 0 (Nat.succ_pos i), i, hi, faultAt_succ ▸ hfault, fun j hj => ?_⟩
      exact strikes_succ.not.mp (hbefore (j + 1) (Nat.succ_lt_succ hj))
  · rintro (⟨hfault, rfl⟩ | ⟨hfirst, i, hi, hfault, hbefore⟩)
    · exact ⟨0, rfl, hfault, fun j hj => absurd hj (Nat.not_lt_zero j)⟩
    · refine ⟨i + 1, hi, faultAt_succ.trans hfault, fun j hj => ?_⟩
      cases j with
      | zero => exact hfirst
      | succ j => exact strikes_succ.not.mpr (hbefore j (Nat.lt_of_succ_lt_succ hj))

/-- No statement of the first ones fails. -/
def Uninterrupted (faults : List (Option AnyError)) (n : Nat) : Prop := ∀ i < n, ¬ Strikes faults i

theorem uninterrupted_succ {n : Nat} : Uninterrupted faults (n + 1) ↔
    ¬ Strikes faults 0 ∧ Uninterrupted faults.tail n := by
  constructor
  · exact fun h => ⟨h 0 (Nat.succ_pos n), fun i hi => strikes_succ.not.mp (h (i + 1) (Nat.succ_lt_succ hi))⟩
  · rintro ⟨hfirst, hrest⟩ i hi
    cases i with
    | zero => exact hfirst
    | succ i => exact strikes_succ.not.mpr (hrest i (Nat.lt_of_succ_lt_succ hi))

namespace EntityTagStorage

open Tagging

/-- The assignments gained, where `Gained` says of which entities. -/
def GainsOf (entityType : EntityDiscriminants) (tagId : Uuid) (Gained : Uuid → Prop) (s t : Tagging) : Prop :=
  t.tags = s.tags ∧
    ∀ x, t.Assigned x ↔ s.Assigned x ∨ (x.entityType = entityType ∧ x.tagId = tagId ∧ Gained x.entityId)

theorem wp_add (htag : (s.store.tags.get tagId).isSome = true) :
    wp (add entityId entityType tagId)
      (fun _ t => t.faults = s.faults.tail ∧ ¬ Strikes s.faults 0 ∧
        GainsOf entityType tagId (fun id => s.fault = none ∧ id = entityId) s.store t.store)
      (fun _ t => Strikes s.faults 0 ∧ t.store = s.store) s := by
  have hnot (h : s.fault = none) : ¬ Strikes s.faults 0 := by
    rintro ⟨e, he, -⟩
    rw [faultAt_zero, h] at he
    cases he
  simp only [add, Program.wp_bind, Program.wp_attempt, Failing.wp_statement]
  refine ⟨fun e he => ?_, fun hnone => ?_⟩
  · simp only [Program.wp_ite, Program.wp_pure, Program.wp_throw]
    refine ⟨fun hexists => ⟨rfl, ?_, rfl, fun x => by simp [he]⟩, fun hother => ?_⟩
    · rintro ⟨e', he', hcontains⟩
      rw [faultAt_zero, he, Option.some.injEq] at he'
      rw [← he', hexists] at hcontains
      cases hcontains
    · exact ⟨⟨e, faultAt_zero.trans he, Bool.not_eq_true _ ▸ hother⟩, rfl⟩
  · refine (wp_createEntityTag htag).mono (fun _ t hcreated => ?_) fun e _ hfailed => ?_
    · obtain ⟨-, htags, hadded⟩ := hcreated
      refine ⟨rfl, hnot hnone, htags, fun x => ?_⟩
      rw [show (s.next t).store = t from rfl, hadded]
      refine or_congr Iff.rfl ⟨?_, ?_⟩
      · rintro rfl
        exact ⟨rfl, rfl, hnone, rfl⟩
      · rintro ⟨rfl, rfl, -, rfl⟩
        rfl
    · obtain ⟨hstored, hcontains⟩ := hfailed
      simp only [hcontains, if_true, Program.wp_pure]
      refine ⟨rfl, hnot hnone, rfl, fun x => ⟨.inl, ?_⟩⟩
      rintro (hx | ⟨rfl, rfl, -, rfl⟩)
      · exact hx
      · exact hstored

theorem wp_bulkAdd (htag : (s.store.tags.get tagId).isSome = true) :
    wp (bulkAdd entityIds entityType tagId)
      (fun _ t => Uninterrupted s.faults entityIds.length ∧
        GainsOf entityType tagId (Reached s.faults entityIds) s.store t.store)
      (fun _ t => ¬ Uninterrupted s.faults entityIds.length ∧
        GainsOf entityType tagId (Reached s.faults entityIds) s.store t.store) s := by
  unfold bulkAdd
  -- the number added so far does not matter
  generalize 0 = added
  induction entityIds generalizing s added with
  | nil =>
    refine ⟨fun i hi => absurd hi (Nat.not_lt_zero i), rfl, fun x => ?_⟩
    simp only [not_reached_nil, and_false, or_false]
  | cons id entityIds ih =>
    simp only [List.foldlM_cons, Program.wp_bind, List.length_cons, uninterrupted_succ]
    refine (wp_add htag).mono (fun b t hran => ?_) fun e t hfailed => ?_
    · obtain ⟨hfaults, hfirst, htags, hadded⟩ := hran
      have hrest := ih (s := t) (by rw [htags]; exact htag) (if b = true then added + 1 else added)
      have hgains (u : Planned AnyError Tagging)
          (h : GainsOf entityType tagId (Reached t.faults entityIds) t.store u.store) :
          GainsOf entityType tagId (Reached s.faults (id :: entityIds)) s.store u.store := by
        refine ⟨h.1.trans htags, fun x => ?_⟩
        rw [h.2, hadded, hfaults]
        simp only [reached_cons, faultAt_zero, hfirst, not_false_eq_true, true_and, and_or_left, or_assoc]
      rw [hfaults] at hrest
      refine hrest.mono (fun _ u hall => ?_) fun _ u hsome => ?_
      · exact ⟨⟨hfirst, hall.1⟩, hgains u (hfaults ▸ hall.2)⟩
      · exact ⟨fun h => hsome.1 h.2, hgains u (hfaults ▸ hsome.2)⟩
    · obtain ⟨hstrikes, hstore⟩ := hfailed
      refine ⟨fun h => h.1 hstrikes, by rw [hstore], fun x => ?_⟩
      have hnone : faultAt s.faults 0 ≠ none := by
        obtain ⟨e, he, -⟩ := hstrikes
        rw [he]
        simp
      simp only [hstore, reached_cons, hnone, hstrikes, not_true_eq_false, false_and, or_self, and_false, or_false]

end EntityTagStorage

/-! ## Replacing the tags of an entity -/

/-- None of the next statements fails. -/
def Quiet (faults : List (Option AnyError)) (n : Nat) : Prop := ∀ i < n, faultAt faults i = none

theorem quiet_zero : Quiet faults 0 := fun i hi => absurd hi (Nat.not_lt_zero i)

theorem quiet_succ {n : Nat} : Quiet faults (n + 1) ↔ faultAt faults 0 = none ∧ Quiet faults.tail n := by
  constructor
  · exact fun h => ⟨h 0 (Nat.succ_pos n), fun i hi => faultAt_succ ▸ h (i + 1) (Nat.succ_lt_succ hi)⟩
  · rintro ⟨hfirst, hrest⟩ i hi
    cases i with
    | zero => exact hfirst
    | succ i => exact faultAt_succ.trans (hrest i (Nat.lt_of_succ_lt_succ hi))

theorem quiet_add {m n : Nat} : Quiet faults (m + n) ↔ Quiet faults m ∧ Quiet (faults.drop m) n := by
  induction m generalizing faults with
  | zero => simp [quiet_zero]
  | succ m ih =>
    rw [Nat.succ_add, quiet_succ, quiet_succ, ih, and_assoc, ← List.drop_one, List.drop_drop, Nat.add_comm 1 m]

namespace EntityTagStorage

open Tagging

variable {tagIds : List Uuid}

/-- The tags of an entity are those given. -/
def Replaced (entityId : Uuid) (entityType : EntityDiscriminants) (tagIds : List Uuid) (s t : Tagging) : Prop :=
  ∀ x, t.Assigned x ↔
    if x.entityId = entityId ∧ x.entityType = entityType then x.tagId ∈ tagIds else s.Assigned x

/-- No tags of the entity. -/
def cleared (entityId : Uuid) (entityType : EntityDiscriminants) (s : Tagging) : Tagging :=
  { s with entityTags := s.entityTags.filter fun x => !(x.entityId == entityId && x.entityType == entityType) }

theorem assigned_cleared {s : Tagging} {x : EntityTag} : (cleared entityId entityType s).Assigned x ↔
    s.Assigned x ∧ ¬ (x.entityId = entityId ∧ x.entityType = entityType) := by
  simp only [Assigned, cleared, Table.mem_filter, Bool.not_eq_true', Bool.and_eq_false_iff,
    beq_eq_false_iff_ne, ne_eq, not_and_or]

/-- Inserting goes on to the end, unless a statement fails or a row is there. -/
theorem wp_insertAll (htags : ∀ tagId ∈ tagIds, (s.store.tags.get tagId).isSome = true) :
    wp (tagIds.forM fun tagId => Failing.statement (createEntityTag { entityId, entityType, tagId }))
      (fun _ t => t.faults = s.faults.drop tagIds.length ∧
        (Quiet s.faults tagIds.length ∧ tagIds.Nodup ∧ ∀ tagId ∈ tagIds,
          ¬ s.store.Assigned { entityId, entityType, tagId }) ∧
        ∀ x, t.store.Assigned x ↔
          s.store.Assigned x ∨ (x.entityId = entityId ∧ x.entityType = entityType ∧ x.tagId ∈ tagIds))
      (fun _ _ => ¬ (Quiet s.faults tagIds.length ∧ tagIds.Nodup ∧
        ∀ tagId ∈ tagIds, ¬ s.store.Assigned { entityId, entityType, tagId })) s := by
  induction tagIds generalizing s with
  | nil =>
    refine ⟨rfl, ⟨quiet_zero, List.nodup_nil, List.forall_mem_nil _⟩, fun x => ?_⟩
    simp only [List.not_mem_nil, and_false, or_false]
  | cons tagId tagIds ih =>
    rw [List.forall_mem_cons] at htags
    rw [List.forM, Program.wp_bind, Failing.wp_statement]
    simp only [List.length_cons, quiet_succ, faultAt_zero, List.nodup_cons, List.forall_mem_cons]
    refine ⟨fun e he h => by simp [h.1.1] at he, fun hnone => ?_⟩
    refine (wp_createEntityTag htags.1).mono (fun _ t ⟨hnew, hsame, hadded⟩ => ?_) fun _ _ h hall => hall.2.2.1 h.1
    have hothers : (∀ i ∈ tagIds, ¬ t.Assigned { entityId, entityType, tagId := i }) ↔
        tagId ∉ tagIds ∧ ∀ i ∈ tagIds, ¬ s.store.Assigned { entityId, entityType, tagId := i } := by
      simp only [hadded, not_or, EntityTag.mk.injEq, true_and]
      constructor
      · exact fun h => ⟨fun hmem => (h tagId hmem).2 rfl, fun i hi => (h i hi).1⟩
      · exact fun ⟨hfirst, hrest⟩ i hi => ⟨hrest i hi, fun heq => hfirst (heq ▸ hi)⟩
    refine (ih (s := s.next t) (by rw [Planned.next_store, hsame]; exact htags.2)).mono
      (fun _ u ⟨hfaults, hall, hu⟩ => ?_) fun _ _ hall h => hall ?_
    · rw [Planned.next_store, hothers] at hall
      obtain ⟨hquiet, hnodup, hfirst, hrest⟩ := hall
      refine ⟨by rw [hfaults, Planned.next_faults, List.drop_tail], ⟨⟨hnone, hquiet⟩, ⟨hfirst, hnodup⟩, hnew, hrest⟩,
        fun x => ?_⟩
      rw [hu, Planned.next_store, hadded, List.mem_cons, or_assoc]
      refine or_congr Iff.rfl ⟨?_, ?_⟩
      · rintro (rfl | ⟨hid, htype, hmem⟩)
        · exact ⟨rfl, rfl, .inl rfl⟩
        · exact ⟨hid, htype, .inr hmem⟩
      · rintro ⟨rfl, rfl, rfl | hmem⟩
        · exact .inl rfl
        · exact .inr ⟨rfl, rfl, hmem⟩
    · rw [Planned.next_store, hothers]
      exact ⟨h.1.2, h.2.1.2, h.2.1.1, h.2.2.2⟩

/-- The tags are replaced, or nothing is changed. -/
theorem wp_set (htags : ∀ tagId ∈ tagIds, (s.store.tags.get tagId).isSome = true) :
    wp (set entityId entityType tagIds)
      (fun _ t => (Quiet s.faults (tagIds.length + 3) ∧ tagIds.Nodup) ∧
        Replaced entityId entityType tagIds s.store t.store)
      (fun _ t => ¬ (Quiet s.faults (tagIds.length + 3) ∧ tagIds.Nodup) ∧ t.store = s.store) s := by
  have hquiet : Quiet s.faults (tagIds.length + 3) ↔ s.fault = none ∧ (s.next s.store).fault = none ∧
      Quiet s.faults.tail.tail tagIds.length ∧ faultAt (s.faults.tail.tail.drop tagIds.length) 0 = none := by
    rw [show tagIds.length + 3 = tagIds.length + 1 + 1 + 1 from rfl, quiet_succ, quiet_succ, quiet_add, quiet_succ,
      faultAt_zero, ← faultAt_zero (s := s.next s.store)]
    simp only [quiet_zero, and_true, Planned.next_faults]
  simp only [set, Program.wp_bind, Failing.wp_statement, Program.wp_pure, Failing.wp_transaction]
  refine ⟨fun e he => ⟨fun h => by simp [(hquiet.mp h.1).1] at he, rfl⟩, fun hbegin => ?_⟩
  refine ⟨fun e he => ⟨fun h => by simp [(hquiet.mp h.1).2.1] at he, rfl⟩, fun hdelete => ?_⟩
  rw [wp_deleteByFilter]
  refine (@wp_insertAll
    ((s.next s.store).next (cleared entityId entityType s.store)) entityId entityType tagIds htags).mono
    (fun _ t hinserted => ?_) fun _ t hfailed => ⟨fun h => ?_, rfl⟩
  · obtain ⟨hfaults, ⟨hinserts, hnodup, -⟩, ht⟩ := hinserted
    rw [← faultAt_zero, hfaults]
    simp only [Planned.next_faults] at hinserts ⊢
    refine ⟨fun e he => ⟨fun h => Option.some_ne_none e (he.symm.trans (hquiet.mp h.1).2.2.2), rfl⟩,
      fun hcommit => ?_⟩
    refine ⟨⟨hquiet.mpr ⟨hbegin, hdelete, hinserts, hcommit⟩, hnodup⟩, fun x => ?_⟩
    rw [Planned.next_store, ht, Planned.next_store, assigned_cleared]
    split
    · next h => simp [h]
    · next h =>
      simp only [h, not_false_eq_true, and_true]
      exact ⟨fun hx => hx.resolve_right fun hx => h ⟨hx.1, hx.2.1⟩, .inl⟩
  · refine hfailed ⟨(hquiet.mp h.1).2.2.1, h.2, fun tagId _ hassigned => ?_⟩
    exact (assigned_cleared.mp hassigned).2 ⟨rfl, rfl⟩

end EntityTagStorage

namespace EntityTagService

open Tagging EntityTagStorage

variable {organizationId : Uuid} {tagIds : List Uuid}

/-- All tags pass, or nothing has happened yet. -/
theorem wp_validateTags :
    wp (tagIds.forM fun tagId => validateTag tagId organizationId)
      (fun _ t => t.store = s.store ∧ t.faults = s.faults.drop tagIds.length ∧ Quiet s.faults tagIds.length ∧
        ∀ tagId ∈ tagIds, s.store.HasTag organizationId tagId)
      (fun _ t => t.store = s.store ∧
        ¬ (Quiet s.faults tagIds.length ∧ ∀ tagId ∈ tagIds, s.store.HasTag organizationId tagId)) s := by
  induction tagIds generalizing s with
  | nil => exact ⟨rfl, rfl, quiet_zero, List.forall_mem_nil _⟩
  | cons tagId tagIds ih =>
    rw [List.forM, Program.wp_bind]
    simp only [List.length_cons, quiet_succ, faultAt_zero, List.forall_mem_cons]
    refine wp_validateTag (fun e he => ⟨rfl, fun h => he ⟨h.1.1, h.2.1⟩⟩) fun hnone htag => ?_
    refine (ih (s := s.next s.store)).mono (fun _ t ⟨hstore, hfaults, hquiet, hall⟩ =>
      ?_) fun _ t ⟨hstore, hfailed⟩ => ?_
    · refine ⟨hstore, ?_, ⟨hnone, hquiet⟩, htag, hall⟩
      rw [hfaults, Planned.next_faults, List.drop_tail]
    · exact ⟨hstore, fun h => hfailed ⟨h.1.2, h.2.2⟩⟩

/-- The tags of an entity can be replaced. -/
structure CanSet (s : Planned AnyError Tagging) (tagIds : List Uuid) (organizationId : Uuid) : Prop where
  given : tagIds ≠ []
  tags : ∀ tagId ∈ tagIds, s.store.HasTag organizationId tagId
  nodup : tagIds.Nodup
  /-- The tags are looked up one by one, and inserted one by one in a transaction. -/
  quiet : Quiet s.faults (tagIds.length + (tagIds.length + 3))

/-- The tags are replaced, or nothing is changed. -/
theorem wp_setTags :
    wp (setTags entityId entityType tagIds organizationId)
      (fun _ t => (CanSet s tagIds organizationId ∧ Replaced entityId entityType tagIds s.store t.store) ∨
        (tagIds = [] ∧ t.store = s.store))
      (fun _ t => ¬ CanSet s tagIds organizationId ∧ t.store = s.store) s := by
  simp only [setTags, Program.wp_ite, Program.wp_pure, Program.wp_bind, List.isEmpty_iff]
  refine ⟨fun hnil => .inr ⟨hnil, trivial⟩, fun hgiven => ?_⟩
  refine wp_validateTags.mono (fun _ t hvalid => ?_) fun _ t hinvalid => ?_
  · obtain ⟨hstore, hfaults, hquiet, htags⟩ := hvalid
    rw [wp_inContext]
    refine (wp_set fun tagId hmem => ?_).mono (fun _ u hset => .inl ?_) fun _ u hfailed => ?_
    · rw [hstore]
      exact HasTag.isSome (htags tagId hmem)
    · obtain ⟨⟨hset, hnodup⟩, hu⟩ := hset
      refine ⟨⟨hgiven, htags, hnodup, quiet_add.mpr ⟨hquiet, hfaults ▸ hset⟩⟩, ?_⟩
      rw [← hstore]
      exact hu
    · obtain ⟨hfailed, hu⟩ := hfailed
      exact ⟨fun h => hfailed ⟨hfaults ▸ (quiet_add.mp h.quiet).2, h.nodup⟩, hu.trans hstore⟩
  · obtain ⟨hstore, hfailed⟩ := hinvalid
    exact ⟨fun h => hfailed ⟨(quiet_add.mp h.quiet).1, h.tags⟩, hstore⟩

/-- The entities are added to until a statement fails, once the tag has passed. -/
theorem wp_bulkAddTag :
    wp (bulkAddTag entityIds entityType tagId organizationId)
      (fun _ t => (s.fault = none ∧ s.store.HasTag organizationId tagId →
        Uninterrupted s.faults.tail entityIds.length) ∧
        GainsOf entityType tagId (fun id => (s.fault = none ∧ s.store.HasTag organizationId tagId) ∧
          Reached s.faults.tail entityIds id) s.store t.store)
      (fun _ t => (s.fault = none ∧ s.store.HasTag organizationId tagId →
        ¬ Uninterrupted s.faults.tail entityIds.length) ∧
        GainsOf entityType tagId (fun id => (s.fault = none ∧ s.store.HasTag organizationId tagId) ∧
          Reached s.faults.tail entityIds id) s.store t.store) s := by
  have hgains {Gained : Uuid → Prop} (h : ∀ id, ¬ Gained id) : GainsOf entityType tagId Gained s.store s.store :=
    ⟨rfl, fun x => by simp only [h, and_false, or_false]⟩
  simp only [bulkAddTag, Program.wp_ite, Program.wp_pure, Program.wp_bind, List.isEmpty_iff]
  refine ⟨fun hnil => ?_, fun _ => wp_validateTag (fun e he => ?_) fun hnone htag => ?_⟩
  · subst hnil
    exact ⟨fun _ i hi => absurd hi (Nat.not_lt_zero i), hgains fun id h => not_reached_nil h.2⟩
  · exact ⟨fun h => absurd h he, hgains fun id h => he h.1⟩
  · rw [wp_inContext]
    have hadd := @wp_bulkAdd (s.next s.store) entityIds entityType tagId (HasTag.isSome htag)
    simp only [hnone, htag, and_self, true_and, forall_const]
    exact hadd

/-- The assignments are removed, unless the statement fails. -/
theorem wp_bulkRemoveTag :
    wp (bulkRemoveTag entityIds entityType tagId)
      (fun _ t => ∀ x, t.store.Assigned x ↔ s.store.Assigned x ∧
        ¬ (s.fault = none ∧ x.entityId ∈ entityIds ∧ x.entityType = entityType ∧ x.tagId = tagId))
      (fun _ t => s.fault ≠ none ∧ t.store = s.store) s := by
  simp only [bulkRemoveTag, EntityTagStorage.bulkRemove, Program.wp_ite, Program.wp_pure, wp_inContext,
    Failing.wp_statement, List.isEmpty_iff]
  refine ⟨fun hnil x => by simp [hnil], fun hgiven => ⟨fun hnil => absurd hnil hgiven, fun _ => ?_⟩⟩
  refine ⟨fun e he => ⟨by simp [he], rfl⟩, fun hnone => ?_⟩
  rw [wp_deleteByFilter]
  intro x
  simp only [Planned.next_store, Assigned, Table.mem_filter, hnone, true_and, Bool.not_eq_true',
    Bool.and_eq_false_iff, beq_eq_false_iff_ne, List.contains_eq_mem, decide_eq_false_iff_not, not_and_or,
      or_assoc, ne_eq]

end EntityTagService

end Loop

/-! ## The endpoints -/

/-- Where an entity belongs. -/
structure Ownership where
  organizationId : Uuid
  /-- None for what belongs to the organization as a whole. -/
  networkId : Option Uuid

/-- A request for tags, who makes it, and how the statements it comes to fail. -/
structure Tagging.Action where
  entity : AuthenticatedEntity
  request : BulkTagRequest ⊕ BulkTagRequest ⊕ SetTagsRequest
  faults : List (Option AnyError) := []

namespace TagHandlers

open Tagging EntityTagStorage EntityTagService

/-- The request for the tag of several entities, or for the tags of one. -/
def perform (a : Action) : Handler Unit :=
  match a.request with
  | .inl request => do let _ ← bulkAddTag a.entity request
  | .inr (.inl request) => do let _ ← bulkRemoveTag a.entity request
  | .inr (.inr request) => setEntityTags a.entity request

/-- The database as the statements of the request find it. -/
def planned (s : Tagging) (a : Action) : Planned AnyError Tagging := { store := s, faults := a.faults }

/-- The members of an organization make requests, one after the other. -/
def step (organizationId : Uuid) (s : Tagging) (a : Action) : Option Tagging :=
  if a.entity.organizationId = some organizationId then some (Program.after (perform a) (planned s a)).store else none

def Fails (s : Tagging) (a : Action) : Prop := wp (perform a) (fun _ _ => False) (fun _ _ => True) (planned s a)

instance (s : Tagging) (a : Action) : Decidable (Fails s a) := inferInstanceAs (Decidable (wp _ _ _ _))

variable (owner : EntityDiscriminants → Uuid → Option Ownership)

/-- The entity is of the caller's organization, and in a network the caller may access, if it is in one. -/
def Own (entity : AuthenticatedEntity) (entityType : EntityDiscriminants) (entityId : Uuid) : Prop :=
  ∃ ownership, owner entityType entityId = some ownership ∧
    entity.organizationId = some ownership.organizationId ∧
      ∀ networkId, ownership.networkId = some networkId → networkId ∈ entity.networkIds

/-- Only assignments of the caller's entities change, and none if the request fails. -/
def Confined (s : Tagging) (a : Action) (t : Tagging) : Prop :=
  (∀ x, ¬ Own owner a.entity x.entityType x.entityId → (t.Assigned x ↔ s.Assigned x)) ∧
    (Fails s a → SameAssignments s t)

/-- Who may tag, and what. -/
def Admitted (entity : AuthenticatedEntity) (entityType : EntityDiscriminants) : Prop :=
  PermissionRequirement.member.authorized entity = none ∧ isEntityTaggable entityType = true

/-- The entities a request changes the assignments of are the caller's, and
nothing fails once a tag was added. -/
def TouchesOwn (organizationId : Uuid) (s : Tagging) (a : Action) : Prop :=
  match a.request with
  | .inl request =>
    Admitted a.entity request.entityType → (planned s a).fault = none ∧ s.HasTag organizationId request.tagId →
      ∀ entityId, Reached a.faults.tail request.entityIds entityId →
        ¬ s.Assigned { entityId, entityType := request.entityType, tagId := request.tagId } →
          Own owner a.entity request.entityType entityId ∧ Uninterrupted a.faults.tail request.entityIds.length
  | .inr (.inl request) =>
    Admitted a.entity request.entityType → (planned s a).fault = none →
      ∀ entityId ∈ request.entityIds,
        s.Assigned { entityId, entityType := request.entityType, tagId := request.tagId } →
        Own owner a.entity request.entityType entityId
  | .inr (.inr request) =>
    Admitted a.entity request.entityType → CanSet (planned s a) request.tagIds organizationId →
      (∃ tagId, ¬ (s.Assigned { entityId := request.entityId, entityType := request.entityType, tagId } ↔
        tagId ∈ request.tagIds)) → Own owner a.entity request.entityType request.entityId

section Handlers

variable {α : Type} {s : Planned AnyError Tagging} {entity : AuthenticatedEntity} {entityType : EntityDiscriminants}

@[simp] theorem wp_answered {p : TagStore α} {Q : α → Planned AnyError Tagging → Prop}
    {E : ApiError → Planned AnyError Tagging → Prop} : wp (answered p) Q E s ↔ wp p Q (fun e => E e.toApi) s := by
  simp only [wp, answered]
  cases p s <;> exact Iff.rfl

theorem wp_authorizeTagging {Q : Unit → Planned AnyError Tagging → Prop}
    {E : ApiError → Planned AnyError Tagging → Prop}
    (hE : ∀ e, ¬ Admitted entity entityType → E e s) (hQ : Admitted entity entityType → Q () s) :
    wp (authorizeTagging entity entityType) Q E s := by
  simp only [authorizeTagging, Program.wp_bind, wp_authorize, Program.wp_ite, Program.wp_throw, Program.wp_pure]
  refine ⟨fun hmember => ⟨fun hnot => hE _ fun h => ?_, fun htaggable => hQ ⟨hmember, ?_⟩⟩,
    fun e he => hE e fun h => ?_⟩
  · rw [h.2] at hnot
    cases hnot
  · simpa using htaggable
  · rw [h.1] at he
    cases he

/-- The program fails, or it does not. -/
theorem wp_fails {p : Handler α} {Q : α → Planned AnyError Tagging → Prop}
    {E : ApiError → Planned AnyError Tagging → Prop}
    (h : wp p Q E s) :
    (¬ wp p (fun _ _ => False) (fun _ _ => True) s ∧ ∃ a, Q a (Program.after p s)) ∨
      (wp p (fun _ _ => False) (fun _ _ => True) s ∧ ∃ e, E e (Program.after p s)) := by
  unfold wp Program.after at *
  split at h
  · exact .inl ⟨id, _, h⟩
  · exact .inr ⟨trivial, _, h⟩

end Handlers

variable {owner} {organizationId : Uuid} {s : Tagging} {a : Action}

theorem organizationContext_eq {entity : AuthenticatedEntity} (h : entity.organizationId = some organizationId) :
    organizationContext entity = pure organizationId := by
  simp only [organizationContext, h]

/-- What is gained is confined if the entities that gain it are the caller's. -/
theorem confined_gains_iff {t : Tagging} {entity : AuthenticatedEntity} {entityType : EntityDiscriminants}
    {tagId : Uuid}
    {Gained : Uuid → Prop} (h : GainsOf entityType tagId Gained s t) :
    (∀ x, ¬ Own owner entity x.entityType x.entityId → (t.Assigned x ↔ s.Assigned x)) ↔
      ∀ entityId, Gained entityId → ¬ s.Assigned { entityId, entityType, tagId } →
          Own owner entity entityType entityId := by
  constructor
  · intro hconfined entityId hgained hnew
    by_contra hforeign
    exact hnew ((hconfined _ hforeign).mp ((h.2 _).mpr (.inr ⟨rfl, rfl, hgained⟩)))
  · intro hown x hforeign
    rw [h.2]
    refine ⟨?_, .inl⟩
    rintro (hx | ⟨rfl, rfl, hgained⟩)
    · exact hx
    · by_contra hnew
      exact hforeign (hown x.entityId hgained hnew)

theorem same_gains_iff {t : Tagging} {entityType : EntityDiscriminants} {tagId : Uuid} {Gained : Uuid → Prop}
    (h : GainsOf entityType tagId Gained s t) :
    SameAssignments s t ↔ ∀ entityId, Gained entityId → s.Assigned { entityId, entityType, tagId } := by
  constructor
  · exact fun hsame entityId hgained => (hsame _).mp ((h.2 _).mpr (.inr ⟨rfl, rfl, hgained⟩))
  · intro hhad x
    rw [h.2]
    refine ⟨?_, .inl⟩
    rintro (hx | ⟨rfl, rfl, hgained⟩)
    · exact hx
    · exact hhad x.entityId hgained

theorem confined_bulkAddTag_iff {request : BulkTagRequest} (hrequest : a.request = .inl request)
    (hentity : a.entity.organizationId = some organizationId) :
    Confined owner s a (Program.after (perform a) (planned s a)).store ↔ TouchesOwn owner organizationId s a := by
  have hwp : wp (perform a)
      (fun _ t => (Admitted a.entity request.entityType → (planned s a).fault = none ∧
        s.HasTag organizationId request.tagId →
          Uninterrupted a.faults.tail request.entityIds.length) ∧
        GainsOf request.entityType request.tagId (fun id => Admitted a.entity request.entityType ∧
          ((planned s a).fault = none ∧ s.HasTag organizationId request.tagId) ∧
          Reached a.faults.tail request.entityIds id) s t.store)
      (fun _ t => (Admitted a.entity request.entityType → (planned s a).fault = none ∧
        s.HasTag organizationId request.tagId →
          ¬ Uninterrupted a.faults.tail request.entityIds.length) ∧
        GainsOf request.entityType request.tagId (fun id => Admitted a.entity request.entityType ∧
          ((planned s a).fault = none ∧ s.HasTag organizationId request.tagId) ∧
          Reached a.faults.tail request.entityIds id) s t.store) (planned s a) := by
    simp only [perform, hrequest, bulkAddTag, Program.wp_bind, organizationContext_eq hentity, Program.wp_pure,
      wp_answered]
    refine wp_authorizeTagging (fun e hnot => ⟨fun h => absurd h hnot, rfl, fun x => ?_⟩) fun hadmitted => ?_
    · simp only [hnot, false_and, and_false, or_false]
      exact Iff.rfl
    · simp only [hadmitted, true_and, forall_const]
      exact wp_bulkAddTag
  simp only [TouchesOwn, hrequest]
  rcases wp_fails hwp with ⟨hdone, -, hall, hgains⟩ | ⟨hfails, -, hall, hgains⟩
  · rw [Confined, confined_gains_iff hgains]
    constructor
    · exact fun h hadmitted htag entityId hreached hnew =>
        ⟨h.1 entityId ⟨hadmitted, htag, hreached⟩ hnew, hall hadmitted htag⟩
    · exact fun h => ⟨fun entityId hgained hnew => (h hgained.1 hgained.2.1 entityId hgained.2.2 hnew).1,
        fun hfails => absurd hfails hdone⟩
  · rw [Confined, confined_gains_iff hgains, same_gains_iff hgains]
    constructor
    · exact fun h hadmitted htag entityId hreached hnew =>
        absurd (h.2 hfails entityId ⟨hadmitted, htag, hreached⟩) hnew
    · refine fun h => ⟨fun entityId hgained hnew => (h hgained.1 hgained.2.1 entityId hgained.2.2 hnew).1,
        fun _ entityId hgained => ?_⟩
      by_contra hnew
      exact hall hgained.1 hgained.2.1 (h hgained.1 hgained.2.1 entityId hgained.2.2 hnew).2

theorem confined_bulkRemoveTag_iff {request : BulkTagRequest} (hrequest : a.request = .inr (.inl request)) :
    Confined owner s a (Program.after (perform a) (planned s a)).store ↔ TouchesOwn owner organizationId s a := by
  have hwp : wp (perform a)
      (fun _ t => ∀ x, t.store.Assigned x ↔ s.Assigned x ∧ ¬ (Admitted a.entity request.entityType ∧
        (planned s a).fault = none ∧ x.entityId ∈ request.entityIds ∧ x.entityType = request.entityType ∧
        x.tagId = request.tagId))
      (fun _ t => ¬ (Admitted a.entity request.entityType ∧ (planned s a).fault = none) ∧ t.store = s)
      (planned s a) := by
    simp only [perform, hrequest, bulkRemoveTag, Program.wp_bind, Program.wp_pure, wp_answered]
    refine wp_authorizeTagging (fun e hnot => ⟨fun h => hnot h.1, rfl⟩) fun hadmitted => ?_
    simp only [hadmitted, true_and]
    exact wp_bulkRemoveTag
  simp only [TouchesOwn, hrequest]
  rcases wp_fails hwp with ⟨hdone, -, hremoved⟩ | ⟨-, -, hrefused, hsame⟩
  · constructor
    · intro h hadmitted hnone entityId hmem hassigned
      by_contra hforeign
      exact ((hremoved _).mp ((h.1 _ hforeign).mpr hassigned)).2 ⟨hadmitted, hnone, hmem, rfl, rfl⟩
    · refine fun h => ⟨fun x hforeign => ?_, fun hfails => absurd hfails hdone⟩
      rw [hremoved]
      refine ⟨And.left, fun hassigned => ⟨hassigned, ?_⟩⟩
      rintro ⟨hadmitted, hnone, hmem, htype, htag⟩
      exact hforeign (htype ▸ h hadmitted hnone x.entityId hmem (by rw [← htype, ← htag]; exact hassigned))
  · rw [hsame]
    exact iff_of_true ⟨fun _ _ => Iff.rfl, fun _ _ => Iff.rfl⟩ fun hadmitted hnone =>
      absurd ⟨hadmitted, hnone⟩ hrefused

theorem confined_setEntityTags_iff {request : SetTagsRequest} (hrequest : a.request = .inr (.inr request))
    (hentity : a.entity.organizationId = some organizationId) :
    Confined owner s a (Program.after (perform a) (planned s a)).store ↔ TouchesOwn owner organizationId s a := by
  have hwp : wp (perform a)
      (fun _ t => (Admitted a.entity request.entityType ∧ CanSet (planned s a) request.tagIds organizationId ∧
          Replaced request.entityId request.entityType request.tagIds s t.store) ∨
        (¬ CanSet (planned s a) request.tagIds organizationId ∧ t.store = s))
      (fun _ t => ¬ (Admitted a.entity request.entityType ∧ CanSet (planned s a) request.tagIds organizationId) ∧
        t.store = s) (planned s a) := by
    simp only [perform, hrequest, setEntityTags, Program.wp_bind, organizationContext_eq hentity, Program.wp_pure,
      wp_answered]
    refine wp_authorizeTagging (fun e hnot => ⟨fun h => hnot h.1, rfl⟩) fun hadmitted => ?_
    simp only [hadmitted, true_and]
    exact wp_setTags.mono (fun _ _ hset =>
      hset.imp_right (And.imp_left fun hnil hcan => hcan.given hnil)) fun _ _ hfailed => hfailed
  simp only [TouchesOwn, hrequest]
  rcases wp_fails hwp with ⟨hdone, -, ⟨hadmitted, hset, hreplaced⟩ | ⟨hnot, hsame⟩⟩ | ⟨-, -, hrefused, hsame⟩
  · constructor
    · rintro h - - ⟨tagId, hdiffers⟩
      by_contra hforeign
      have hkept := h.1 { entityId := request.entityId, entityType := request.entityType, tagId } hforeign
      rw [hreplaced, if_pos ⟨rfl, rfl⟩] at hkept
      exact hdiffers hkept.symm
    · refine fun h => ⟨fun x hforeign => ?_, fun hfails => absurd hfails hdone⟩
      rw [hreplaced]
      split
      · next hx =>
        obtain ⟨hid, htype⟩ := hx
        by_contra hdiffers
        rw [hid, htype] at hforeign
        refine hforeign (h hadmitted hset ⟨x.tagId, fun hsame => hdiffers ?_⟩)
        rw [← hid, ← htype] at hsame
        exact hsame.symm
      · exact Iff.rfl
  · rw [hsame]
    exact iff_of_true ⟨fun _ _ => Iff.rfl, fun _ _ => Iff.rfl⟩ fun _ hset => absurd hset hnot
  · rw [hsame]
    exact iff_of_true ⟨fun _ _ => Iff.rfl, fun _ _ => Iff.rfl⟩ fun hadmitted hset => absurd ⟨hadmitted, hset⟩ hrefused

/-- One request is confined exactly when what it touches is the caller's. -/
theorem confined_iff_of_organization (hentity : a.entity.organizationId = some organizationId) :
    Confined owner s a (Program.after (perform a) (planned s a)).store ↔ TouchesOwn owner organizationId s a := by
  cases hrequest : a.request with
  | inl request => exact confined_bulkAddTag_iff hrequest hentity
  | inr request =>
    cases request with
    | inl request => exact confined_bulkRemoveTag_iff hrequest
    | inr request => exact confined_setEntityTags_iff hrequest hentity

/-! ## Runs -/

variable (owner organizationId) in
/-- The assignments of what is not of the organization are those at the start. -/
def ForeignUnchanged (start s : Tagging) : Prop :=
  ∀ x, (∀ ownership, owner x.entityType x.entityId = some ownership → ownership.organizationId ≠ organizationId) →
    (s.Assigned x ↔ start.Assigned x)

theorem foreign_of_confined (hentity : a.entity.organizationId = some organizationId) {t : Tagging}
    (h : Confined owner s a t) : ForeignUnchanged owner organizationId s t := by
  refine fun x hforeign => h.1 x ?_
  rintro ⟨ownership, hownership, horganization, -⟩
  rw [hentity, Option.some.injEq] at horganization
  exact hforeign ownership hownership horganization.symm

/-- **In every run of requests of the members of an organization, each changes
only what the caller may tag, changes nothing if it fails, and what is not of
the organization stays as it was, exactly when each request touches only the
caller's entities and is not interrupted once a tag was added.** -/
theorem confined_iff_touchesOwn (owner : EntityDiscriminants → Uuid → Option Ownership) (organizationId : Uuid)
    (start : Tagging) (as : List Action) :
    (Every (step organizationId) (Confined owner) start as ∧
        Visits (step organizationId) (ForeignUnchanged owner organizationId start) start as) ↔
      Along (step organizationId) (TouchesOwn owner organizationId) start as := by
  have hstep {s : Tagging} {a : Action} {t : Tagging} (h : step organizationId s a = some t) :
      a.entity.organizationId = some organizationId ∧
          (Confined owner s a t ↔ TouchesOwn owner organizationId s a) := by
    unfold step at h
    split at h
    · next hentity =>
      cases h
      exact ⟨hentity, confined_iff_of_organization hentity⟩
    · cases h
  constructor
  · exact fun h => h.1.mono fun s a t ht => (hstep ht).2.mp
  · intro h
    refine ⟨h.mono fun s a t ht => (hstep ht).2.mpr, ?_⟩
    refine h.visits (I := ForeignUnchanged owner organizationId start) (fun s a t hs hown ht x hforeign => ?_)
      (fun _ hs => hs) fun _ _ => Iff.rfl
    exact (foreign_of_confined (hstep ht).1 ((hstep ht).2.mpr hown) x hforeign).trans (hs x hforeign)

/-- A member of the first organization, and a host of the second. -/
def memberOfFirst : AuthenticatedEntity := .user 5 1 .member [10] true

def hostOfSecond (entityType : EntityDiscriminants) (entityId : Uuid) : Option Ownership :=
  if entityType = .host ∧ entityId = 7 then some { organizationId := 2, networkId := some 20 } else none

theorem tags_foreign_host :
    ¬ (Every (step 1) (Confined hostOfSecond)
        { tags := { rows := [{ id := 3, name := "lab", organizationId := 1 }] } }
        [{ entity := memberOfFirst, request := .inl { entityType := .host, entityIds := [7], tagId := 3 } }] ∧
      Visits (step 1) (ForeignUnchanged hostOfSecond 1
          { tags := { rows := [{ id := 3, name := "lab", organizationId := 1 }] } })
        { tags := { rows := [{ id := 3, name := "lab", organizationId := 1 }] } }
        [{ entity := memberOfFirst, request := .inl { entityType := .host, entityIds := [7], tagId := 3 } }]) := by
  intro h
  have hkept := h.2.2.mono (S := fun _ _ t => ¬ t.Assigned { entityId := 7, entityType := .host, tagId := 3 })
    fun _ _ t _ ht hassigned => by
      have hstart := (ht _ fun ownership hownership => ?_).mp hassigned
      · cases hstart
      · cases hownership
        decide
  exact absurd hkept (by decide +kernel)

end TagHandlers

end Netvisor
