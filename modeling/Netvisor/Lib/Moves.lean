/-
Moving one place in a row: who was at it stands at another, and who was in
between makes room.
-/
import Mathlib

namespace Moves

/-- The places of a row of `n` are renamed, the place `a` to `b`, and the others stay in their order. -/
structure IsMove (n a b : Int) (place : Int → Int) : Prop where
  bijOn : Set.BijOn place (Set.Ico 0 n) (Set.Ico 0 n)
  target : place a = b
  order : StrictMonoOn place (Set.Ico 0 n \ {a})

/-- Where a place goes when `a` goes to `b`. -/
def moved (a b p : Int) : Int :=
  if p = a then b
  else if a < p ∧ p ≤ b then p - 1
  else if b ≤ p ∧ p < a then p + 1
  else p

variable {n a b p q : Int}

theorem moved_self : moved a b a = b := if_pos rfl

theorem moved_moved : moved b a (moved a b p) = p := by
  unfold moved
  split_ifs <;> omega

theorem moved_mem (ha : a ∈ Set.Ico 0 n) (hb : b ∈ Set.Ico 0 n) (hp : p ∈ Set.Ico 0 n) :
    moved a b p ∈ Set.Ico 0 n := by
  rw [Set.mem_Ico] at ha hb hp ⊢
  unfold moved
  split_ifs <;> omega

theorem moved_lt_moved (hp : p ≠ a) (hq : q ≠ a) (h : p < q) : moved a b p < moved a b q := by
  unfold moved
  split_ifs <;> omega

theorem isMove_moved (ha : a ∈ Set.Ico 0 n) (hb : b ∈ Set.Ico 0 n) : IsMove n a b (moved a b) where
  bijOn :=
    have hinv : Set.InvOn (moved b a) (moved a b) (Set.Ico 0 n) (Set.Ico 0 n) :=
      ⟨fun _ _ => moved_moved, fun _ _ => moved_moved⟩
    hinv.bijOn (fun _ hp => moved_mem ha hb hp) fun _ hp => moved_mem hb ha hp
  target := moved_self
  order _ hp _ hq h := moved_lt_moved hp.2 hq.2 h

end Moves
