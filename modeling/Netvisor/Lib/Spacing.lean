/-
Things along a line: which are apart and how far, and what putting them one
after another, pulling them together and moving them a little does to that.
-/
import Mathlib.Data.Int.Order.Basic
import Mathlib.Data.List.Forall2
import Mathlib.Order.Lattice

namespace Spacing

/-- A stretch of the line. -/
structure Span where
  start : Int
  length : Nat
deriving DecidableEq, Repr

namespace Span

def stop (s : Span) : Int := s.start + s.length

/-- It ends, with the gap, where the other starts at the latest. -/
def Before (gap : Int) (a b : Span) : Prop := a.stop + gap ≤ b.start

/-- One of them is before the other. -/
def Apart (gap : Int) (a b : Span) : Prop := Before gap a b ∨ Before gap b a

instance {gap : Int} {a b : Span} : Decidable (Before gap a b) := inferInstanceAs (Decidable (_ ≤ _))

instance {gap : Int} {a b : Span} : Decidable (Apart gap a b) := inferInstanceAs (Decidable (_ ∨ _))

variable {gap gap' d : Int} {a b c a' b' : Span}

theorem Before.trans (hgap : 0 ≤ gap) (hab : Before gap a b) (hbc : Before gap b c) : Before gap a c := by
  simp only [Before, stop] at *
  omega

theorem Apart.symm (h : Apart gap a b) : Apart gap b a := Or.symm h

theorem Apart.mono (h : Apart gap a b) (hle : gap' ≤ gap) : Apart gap' a b := by
  simp only [Apart, Before] at *
  omega

/-- Of two that are apart, the one that starts first is before the other. -/
theorem Apart.before (h : Apart gap a b) (hgap : 0 < gap) (hle : a.start ≤ b.start) : Before gap a b := by
  simp only [Apart, Before, stop] at *
  omega

/-- Moving either by `d` takes at most twice that from the gap. -/
theorem Apart.nudge (h : Apart gap a b) (ha : a'.start ≤ a.start + d ∧ a.start ≤ a'.start + d)
    (hb : b'.start ≤ b.start + d ∧ b.start ≤ b'.start + d) (hla : a'.length = a.length) (hlb : b'.length = b.length) :
    Apart (gap - 2 * d) a' b' := by
  simp only [Apart, Before, stop] at *
  omega

end Span

open Spacing.Span

/-! ## One after another -/

/-- Things of these lengths one after another, the first at `start`. -/
def stack (gap : Int) : Int → List Nat → List Span
  | _, [] => []
  | start, length :: lengths => ⟨start, length⟩ :: stack gap (start + length + gap) lengths

variable {gap g start : Int} {lengths : List Nat} {l : List Span} {s : Span}

theorem map_length_stack : (stack gap start lengths).map Span.length = lengths := by
  induction lengths generalizing start with
  | nil => rfl
  | cons length lengths ih => rw [stack, List.map_cons, ih]

theorem length_stack : (stack gap start lengths).length = lengths.length := by
  rw [← List.length_map Span.length, map_length_stack]

theorem start_le_of_mem_stack (hgap : 0 ≤ gap) (hs : s ∈ stack gap start lengths) : start ≤ s.start := by
  induction lengths generalizing start with
  | nil => cases hs
  | cons length lengths ih =>
    rcases List.mem_cons.mp hs with rfl | hs
    · exact le_rfl
    · have := ih hs
      omega

theorem pairwise_stack (hgap : 0 ≤ gap) : (stack gap start lengths).Pairwise (Before gap) := by
  induction lengths generalizing start with
  | nil => exact List.Pairwise.nil
  | cons length lengths ih => exact List.pairwise_cons.mpr ⟨fun s hs => start_le_of_mem_stack hgap hs, ih⟩

/-- What is spaced already is not moved further on. -/
theorem stack_le (hstart : ∀ s ∈ l, start ≤ s.start) (hl : l.Pairwise (Before gap)) :
    List.Forall₂ (fun s' s => s'.start ≤ s.start ∧ s'.length = s.length) (stack gap start (l.map Span.length)) l := by
  induction l generalizing start with
  | nil => exact List.Forall₂.nil
  | cons s l ih =>
    have hfirst : start ≤ s.start := hstart s List.mem_cons_self
    refine List.Forall₂.cons ⟨hfirst, rfl⟩ (ih (fun t ht => ?_) (List.pairwise_cons.mp hl).2)
    have hbefore : Before gap s t := (List.pairwise_cons.mp hl).1 t ht
    simp only [Before, stop] at hbefore
    omega

/-- Where the `i`th of things with these lengths starts. -/
def cursor (gap start : Int) (length : Nat → Nat) : Nat → Int
  | 0 => start
  | i + 1 => cursor gap start length i + length i + gap

variable {length : Nat → Nat} {i j : Nat}

theorem cursor_before (hgap : 0 ≤ gap) (hij : i < j) :
    Before gap ⟨cursor gap start length i, length i⟩ ⟨cursor gap start length j, length j⟩ := by
  simp only [Before, stop]
  induction hij with
  | refl => rfl
  | step hij ih =>
    rw [cursor]
    omega

theorem start_le_cursor (hgap : 0 ≤ gap) : start ≤ cursor gap start length i := by
  induction i with
  | zero => exact le_rfl
  | succ i ih =>
    rw [cursor]
    omega

/-! ## Pulled together -/

/-- Each is moved back to the end of the one before it, and never on. -/
def pull (gap : Int) : Int → List Span → List Span
  | _, [] => []
  | first, s :: l => ⟨min first s.start, s.length⟩ :: pull gap (min first s.start + s.length + gap) l

theorem pull_le {first : Int} : List.Forall₂ (fun s' s => s'.start ≤ s.start ∧ s'.length = s.length)
    (pull gap first l) l := by
  induction l generalizing first with
  | nil => exact List.Forall₂.nil
  | cons s l ih => exact List.Forall₂.cons ⟨min_le_right _ _, rfl⟩ ih

/-- What was spaced behind `a` is spaced behind it still, also if `a` was moved back. -/
theorem pairwise_pull {a a' : Span} (hg : 0 ≤ g) (hgap : g ≤ gap) (hl : (a :: l).Pairwise (Before g))
    (hstart : a'.start ≤ a.start) (hlength : a'.length = a.length) :
    (a' :: pull gap (a'.stop + gap) l).Pairwise (Before g) := by
  induction l generalizing a a' with
  | nil => exact List.pairwise_singleton _ _
  | cons s l ih =>
    obtain ⟨ha, hl⟩ := List.pairwise_cons.mp hl
    have hs : Before g a s := ha s List.mem_cons_self
    have hrest := @ih s ⟨min (a'.stop + gap) s.start, s.length⟩ hl (min_le_right _ _) rfl
    have hfirst : Before g a' ⟨min (a'.stop + gap) s.start, s.length⟩ := by
      simp only [Before, stop] at *
      omega
    refine List.pairwise_cons.mpr ⟨fun t ht => ?_, hrest⟩
    rcases List.mem_cons.mp ht with rfl | ht
    · exact hfirst
    · exact hfirst.trans hg ((List.pairwise_cons.mp hrest).1 t ht)

/-! ## Room for one more -/

/-- There is room before the first of them. -/
theorem exists_room (others : List Span) (hne : others ≠ []) (length : Nat) :
    ∃ o ∈ others, ∀ o' ∈ others, Before gap ⟨o.start - length - gap, length⟩ o' := by
  suffices ∃ o ∈ others, ∀ o' ∈ others, o.start ≤ o'.start by
    obtain ⟨o, ho, hmin⟩ := this
    refine ⟨o, ho, fun o' ho' => ?_⟩
    have := hmin o' ho'
    simp only [Before, stop]
    omega
  induction others with
  | nil => exact absurd rfl hne
  | cons s others ih =>
    by_cases hothers : others = []
    · subst hothers
      exact ⟨s, List.mem_cons_self, fun o' ho' => le_of_eq (by rw [List.mem_singleton.mp ho'])⟩
    · obtain ⟨o, ho, hmin⟩ := ih hothers
      by_cases hle : s.start ≤ o.start
      · refine ⟨s, List.mem_cons_self, fun o' ho' => ?_⟩
        rcases List.mem_cons.mp ho' with rfl | ho'
        · exact le_rfl
        · exact hle.trans (hmin o' ho')
      · refine ⟨o, List.mem_cons_of_mem s ho, fun o' ho' => ?_⟩
        rcases List.mem_cons.mp ho' with rfl | ho'
        · omega
        · exact hmin o' ho'

end Spacing
