/-
Sorting by a key and dropping repetitions, as a stable sort followed by the
removal of consecutive elements with one key does it.
-/
import Mathlib.Data.List.Dedup
import Mathlib.Data.List.Destutter
import Mathlib.Data.List.Sort
import Mathlib.Order.Defs.LinearOrder

namespace Sorting

variable {α κ : Type*} [LinearOrder κ] (key : α → κ)

/-- Sorted by the key, and of those with one key the first only. -/
def sortDedup (l : List α) : List α :=
  (l.insertionSort fun a b => key a ≤ key b).destutter fun a b => key a ≠ key b

variable {key} {l : List α} {k : κ}

theorem mem_map_destutter' {a : α} : k ∈ (l.destutter' (fun a b => key a ≠ key b) a).map key ↔
    k ∈ (a :: l).map key := by
  induction l generalizing a with
  | nil => simp
  | cons b l ih =>
    by_cases h : key a = key b
    · rw [List.destutter'_cons_neg _ (by simpa using h), ih]
      simp only [List.map_cons, List.mem_cons, h]
      tauto
    · rw [List.destutter'_cons_pos _ h, List.map_cons, List.mem_cons, ih]
      simp only [List.map_cons, List.mem_cons]

theorem mem_map_sortDedup : k ∈ (sortDedup key l).map key ↔ k ∈ l.map key := by
  have hperm : (l.insertionSort fun a b => key a ≤ key b).Perm l := List.perm_insertionSort _ l
  rw [← (hperm.map key).mem_iff, sortDedup]
  cases l.insertionSort fun a b => key a ≤ key b with
  | nil => rfl
  | cons a l => exact mem_map_destutter'

theorem sortDedup_subset : sortDedup key l ⊆ l := by
  intro a ha
  exact (List.perm_insertionSort _ l).mem_iff.mp ((List.destutter_sublist _ _).subset ha)

/-- The keys increase from element to element. -/
theorem pairwise_sortDedup : (sortDedup key l).Pairwise fun a b => key a < key b := by
  have hsorted : (sortDedup key l).Pairwise fun a b => key a ≤ key b :=
    (List.pairwise_insertionSort (fun a b => key a ≤ key b) l).sublist (List.destutter_sublist _ _)
  have hchain : (sortDedup key l).IsChain fun a b => key a ≠ key b := List.isChain_destutter _ _
  have hlt : (sortDedup key l).IsChain fun a b => key a < key b := by
    rw [List.isChain_iff_getElem] at hchain ⊢
    intro i hi
    exact lt_of_le_of_ne (List.pairwise_iff_getElem.mp hsorted i (i + 1) _ hi (Nat.lt_succ_self i)) (hchain i hi)
  have : IsTrans α fun a b => key a < key b := ⟨fun _ _ _ => lt_trans⟩
  exact hlt.pairwise

theorem nodup_sortDedup : ((sortDedup key l).map key).Nodup :=
  List.pairwise_map.mpr (pairwise_sortDedup.imp ne_of_lt)

/-- Lists of the same keys are sorted to the same list where the key says which
element it is of. -/
theorem sortDedup_congr {l' : List α} {f : κ → α} (hl : ∀ a ∈ l, a = f (key a)) (hl' : ∀ a ∈ l', a = f (key a))
    (hkeys : ∀ k, k ∈ l.map key ↔ k ∈ l'.map key) : sortDedup key l = sortDedup key l' := by
  have hsub {l l' : List α} (hl : ∀ a ∈ l, a = f (key a)) (hl' : ∀ a ∈ l', a = f (key a))
      (hkeys : ∀ k, k ∈ l.map key → k ∈ l'.map key) : sortDedup key l ⊆ sortDedup key l' := by
    intro a ha
    have hk := mem_map_sortDedup.mpr (hkeys _ (mem_map_sortDedup.mp (List.mem_map_of_mem ha)))
    obtain ⟨b, hb, hkey⟩ := List.mem_map.mp hk
    rw [hl a (sortDedup_subset ha), ← hkey, ← hl' b (sortDedup_subset hb)]
    exact hb
  have hperm : (sortDedup key l).Perm (sortDedup key l') :=
    (List.perm_ext_iff_of_nodup nodup_sortDedup.of_map nodup_sortDedup.of_map).mpr fun a =>
      ⟨fun ha => hsub hl hl' (fun k => (hkeys k).mp) ha, fun ha => hsub hl' hl (fun k => (hkeys k).mpr) ha⟩
  exact hperm.eq_of_pairwise (fun a b _ _ hab hba => absurd (hab.trans hba) (lt_irrefl _)) pairwise_sortDedup
    pairwise_sortDedup

/-! ## Groups -/

section Groups

variable {κ : Type*} [DecidableEq κ] {f : α → κ}

theorem perm_flatMap_filter {ks : List κ} (hks : ks.Nodup) (l : List α) :
    (ks.flatMap fun k => l.filter fun a => f a == k).Perm (l.filter fun a => ks.contains (f a)) := by
  induction ks with
  | nil => simp
  | cons k ks ih =>
    obtain ⟨hk, hks⟩ := List.nodup_cons.mp hks
    rw [List.flatMap_cons]
    refine ((ih hks).append_left _).trans ?_
    have hfirst : (l.filter fun a => (k :: ks).contains (f a)).filter (fun a => f a == k) = l.filter fun a =>
        f a == k := by
      rw [List.filter_filter]
      refine List.filter_congr fun a _ => ?_
      by_cases h : f a = k <;> simp [h]
    have hrest : (l.filter fun a => (k :: ks).contains (f a)).filter (fun a => !(f a == k)) =
        l.filter fun a => ks.contains (f a) := by
      rw [List.filter_filter]
      refine List.filter_congr fun a _ => ?_
      by_cases h : f a = k
      · simp [h, hk]
      · simp [h]
    rw [← hfirst, ← hrest]
    exact List.filter_append_perm _ _

/-- Taken together, the groups of a list are the list. -/
theorem perm_groups {ks : List κ} (hks : ks.Perm (l.map f).dedup) :
    (ks.flatMap fun k => l.filter fun a => f a == k).Perm l := by
  refine (perm_flatMap_filter (hks.nodup_iff.mpr (List.nodup_dedup _)) l).trans ?_
  rw [List.filter_eq_self.mpr]
  intro a ha
  have hmem : f a ∈ ks := hks.mem_iff.mpr (List.mem_dedup.mpr (List.mem_map_of_mem ha))
  simpa using hmem

end Groups

end Sorting
