/-
The order of entities within what they belong to, kept as positions from 0 on,
and moving one of them.
-/
import Mathlib.Data.List.Sort
import Netvisor.Entities
import Netvisor.Lib.Moves

namespace Netvisor

open Moves (IsMove moved isMove_moved moved_moved)

/-- An entity with a position. -/
class Positioned (α : Type) where
  position : α → Int
  setPosition : Int → α → α

/-- The position is a field of its own. -/
class LawfulPositioned (α : Type) [Positioned α] : Prop where
  position_setPosition (p : Int) (a : α) : Positioned.position (Positioned.setPosition p a) = p
  setPosition_setPosition (p q : Int) (a : α) :
    Positioned.setPosition q (Positioned.setPosition p a) = Positioned.setPosition q a
  setPosition_position (a : α) : Positioned.setPosition (Positioned.position a) a = a

attribute [simp] LawfulPositioned.position_setPosition LawfulPositioned.setPosition_setPosition
  LawfulPositioned.setPosition_position

instance : Positioned Interface where
  position i := i.base.position
  setPosition position i := { i with base.position := position }

instance : Positioned Service where
  position s := s.base.position
  setPosition position s := { s with base.position := position }

instance : LawfulPositioned Interface := ⟨fun _ _ => rfl, fun _ _ _ => rfl, fun _ => rfl⟩

instance : LawfulPositioned Service := ⟨fun _ _ => rfl, fun _ _ _ => rfl, fun _ => rfl⟩

namespace Positioned

variable {α : Type} [Positioned α]

/-- `len() as i32`. -/
def count (entities : List α) : Int := (entities.length : Int).bmod 4294967296

/-- Move the entity at a position to another one. The entities are sorted by position on the way. -/
def reorderPositions (entities : List α) (fromPosition toPosition : Int) : List α × Bool :=
  if fromPosition = toPosition then (entities, false)
  else if fromPosition < 0 ∨ count entities ≤ fromPosition ∨ toPosition < 0 ∨
    count entities ≤ toPosition then (entities, false)
  else
    let entities := entities.mergeSort fun a b => position a ≤ position b
    if fromPosition < toPosition then
      (entities.map fun entity =>
        let pos := position entity
        if pos = fromPosition then setPosition toPosition entity
        else if fromPosition < pos ∧ pos ≤ toPosition then setPosition (pos - 1) entity
        else entity, true)
    else
      (entities.map fun entity =>
        let pos := position entity
        if pos = fromPosition then setPosition toPosition entity
        else if toPosition ≤ pos ∧ pos < fromPosition then setPosition (pos + 1) entity
        else entity, true)

/-- The positions are those from 0 on, in some order. -/
def Sequential (entities : List α) : Prop :=
  (entities.map position).Perm ((List.range entities.length).map fun i : Nat => (i : Int))

/-- A position an entity can have. -/
def InRange (entities : List α) (p : Int) : Prop := 0 ≤ p ∧ p < count entities

/-- The entities with their positions renamed. -/
def relocated (place : Int → Int) (entities : List α) : List α :=
  entities.map fun e => setPosition (place (position e)) e

variable {entities entities' : List α} {a b : Int}

omit [Positioned α] in
theorem count_le : count entities ≤ entities.length := by
  have hbmod (m : Nat) : (entities.length : Int).bmod m ≤ entities.length := by
    have hdiv := Int.emod_add_mul_ediv entities.length m
    have hnonneg : 0 ≤ (m : Int) * (entities.length / m) :=
      Int.mul_nonneg (by omega) (Int.ediv_nonneg (by omega) (by omega))
    rw [Int.bmod_def]
    split <;> omega
  exact hbmod _

omit [Positioned α] in
theorem InRange.mem_Ico (h : InRange entities a) : a ∈ Set.Ico 0 (entities.length : Int) :=
  ⟨h.1, h.2.trans_le count_le⟩

omit [Positioned α] in
/-- The cast of the length makes no difference below its bound. -/
theorem inRange_iff (h : entities.length < 2 ^ 31) : InRange entities a ↔ a ∈ Set.Ico 0 (entities.length : Int) := by
  have hcount : count entities = entities.length := Int.bmod_eq_of_le_mul_two (by omega) (by omega)
  rw [InRange, hcount, Set.mem_Ico]

omit [Positioned α] in
theorem inRange_congr (h : entities.length = entities'.length) : InRange entities a ↔ InRange entities' a := by
  unfold InRange count
  rw [h]

/-- Nothing is done unless the positions are two and in range. -/
theorem reorderPositions_of_not (h : ¬ (InRange entities a ∧ InRange entities b) ∨ a = b) :
    reorderPositions entities a b = (entities, false) := by
  unfold reorderPositions
  split
  · rfl
  · next hne =>
    refine if_pos ?_
    have hout := h.resolve_right hne
    unfold InRange at hout
    omega

variable [LawfulPositioned α]

theorem relocated_eq {entity : α} (hab : a < b) : setPosition (moved a b (position entity)) entity =
    if position entity = a then setPosition b entity
    else if a < position entity ∧ position entity ≤ b then setPosition (position entity - 1) entity else entity := by
  unfold moved
  split
  · rfl
  split
  · rfl
  · rw [if_neg (by omega), LawfulPositioned.setPosition_position]

theorem relocated_eq' {entity : α} (hba : b < a) : setPosition (moved a b (position entity)) entity =
    if position entity = a then setPosition b entity
    else if b ≤ position entity ∧ position entity < a then setPosition (position entity + 1) entity else entity := by
  unfold moved
  split
  · rfl
  rw [if_neg (by omega)]
  split
  · rfl
  · exact LawfulPositioned.setPosition_position entity

/-- The two loops do the same: each entity goes where its place goes. -/
theorem reorderPositions_eq (ha : InRange entities a) (hb : InRange entities b) (hne : a ≠ b) :
    reorderPositions entities a b =
    (relocated (moved a b) (entities.mergeSort fun a b => position a ≤ position b), true) := by
  unfold reorderPositions
  rw [if_neg hne, if_neg (by unfold InRange at ha hb; omega)]
  rcases lt_or_gt_of_ne hne with hlt | hlt
  · rw [if_pos hlt, relocated]
    simp only [relocated_eq hlt]
  · rw [if_neg (not_lt_of_gt hlt), relocated]
    simp only [relocated_eq' hlt]

theorem map_position_relocated (place : Int → Int) (entities : List α) :
    (relocated place entities).map position = (entities.map position).map place := by
  simp [relocated, Function.comp_def]

theorem reorderPositions_perm (ha : InRange entities a) (hb : InRange entities b) (hne : a ≠ b) :
    (reorderPositions entities a b).1.Perm (relocated (moved a b) entities) := by
  rw [reorderPositions_eq ha hb hne]
  exact (List.mergeSort_perm entities _).map _

theorem length_reorderPositions : (reorderPositions entities a b).1.length = entities.length := by
  by_cases h : (InRange entities a ∧ InRange entities b) ∧ a ≠ b
  · rw [(reorderPositions_perm h.1.1 h.1.2 h.2).length_eq, relocated, List.length_map]
  · rw [reorderPositions_of_not (by tauto)]

/-- Moving an entity back undoes it. -/
theorem reorderPositions_reorderPositions (ha : InRange entities a) (hb : InRange entities b) (hne : a ≠ b) :
    (reorderPositions (reorderPositions entities a b).1 b a).1.Perm entities := by
  have hrange {p : Int} : InRange (reorderPositions entities a b).1 p ↔ InRange entities p :=
    inRange_congr length_reorderPositions
  refine (reorderPositions_perm (hrange.mpr hb) (hrange.mpr ha) hne.symm).trans ?_
  refine ((reorderPositions_perm ha hb hne).map _).trans (List.Perm.of_eq ?_)
  simp [relocated, Function.comp_def, moved_moved]

omit [LawfulPositioned α] in
theorem Sequential.of_perm (h : Sequential entities') (hperm : entities.Perm entities') : Sequential entities := by
  rw [Sequential, hperm.length_eq]
  exact (hperm.map position).trans h

/-- The positions are those from 0 on after the places were renamed among themselves. -/
theorem sequential_relocated {place : Int → Int} (hplace : IsMove entities.length a b place)
    (h : Sequential entities) :
    Sequential (relocated place entities) := by
  have hmem {p : Int} : p ∈ (List.range entities.length).map (fun i : Nat => (i : Int)) ↔
      p ∈ Set.Ico 0 (entities.length : Int) := by
    simp only [List.mem_map, List.mem_range, Set.mem_Ico]
    constructor
    · rintro ⟨i, hi, rfl⟩
      omega
    · intro hp
      exact ⟨p.toNat, by omega, by omega⟩
  have hnodup : ((List.range entities.length).map fun i : Nat => (i : Int)).Nodup :=
    List.nodup_range.map fun _ _ => Int.ofNat.inj
  rw [Sequential, map_position_relocated, relocated, List.length_map]
  refine (h.map place).trans ((List.perm_ext_iff_of_nodup ?_ hnodup).mpr fun p => ?_)
  · exact hnodup.map_on fun _ hp _ hq heq => hplace.bijOn.injOn (hmem.mp hp) (hmem.mp hq) heq
  · rw [hmem, ← hplace.bijOn.image_eq, List.mem_map]
    simp only [hmem, Set.mem_image]

/-- **`reorder_positions` moves one entity and nothing else, the move back undoes it, and positions out of range change
nothing.** -/
theorem reorderPositions_moves (h : Sequential entities) :
    (InRange entities a → InRange entities b → a ≠ b →
      (reorderPositions entities a b).2 = true ∧ Sequential (reorderPositions entities a b).1 ∧
      (∃ place, IsMove entities.length a b place ∧
        (reorderPositions entities a b).1.Perm (relocated place entities)) ∧
      (reorderPositions (reorderPositions entities a b).1 b a).1.Perm entities) ∧
    (¬ (InRange entities a ∧ InRange entities b) ∨ a = b → reorderPositions entities a b = (entities, false)) := by
  refine ⟨fun ha hb hne => ⟨by rw [reorderPositions_eq ha hb hne], ?_, ?_, ?_⟩, reorderPositions_of_not⟩
  · exact (sequential_relocated (isMove_moved ha.mem_Ico hb.mem_Ico) h).of_perm (reorderPositions_perm ha hb hne)
  · exact ⟨moved a b, isMove_moved ha.mem_Ico hb.mem_Ico, reorderPositions_perm ha hb hne⟩
  · exact reorderPositions_reorderPositions ha hb hne

def servicesAt (positions : List Int) : List Service := positions.map fun position => { base := { position } }

/-- The first of three services is put behind the others. -/
theorem reorderPositions_moves_first :
    (reorderPositions (servicesAt [0, 1, 2]) 0 2).2 = true ∧
    Sequential (reorderPositions (servicesAt [0, 1, 2]) 0 2).1 ∧
    (∃ place, IsMove 3 0 2 place ∧
      (reorderPositions (servicesAt [0, 1, 2]) 0 2).1.Perm (relocated place (servicesAt [0, 1, 2]))) ∧
    (reorderPositions (reorderPositions (servicesAt [0, 1, 2]) 0 2).1 2 0).1.Perm (servicesAt [0, 1, 2]) :=
  (reorderPositions_moves (show Sequential (servicesAt [0, 1, 2]) from List.Perm.refl [0, 1, 2])).1
    ⟨by decide, by decide⟩ ⟨by decide, by decide⟩ (by decide)

end Positioned

end Netvisor
