/-
Search by an equality of one's own, and the hash that goes with it.

A list is searched for the first element that is equal, a hash table for the
first of those with the same hash. Both sort the elements into the same classes
in any order if the equality is an equivalence and equal elements hash equally.
-/
import Mathlib.Data.List.Find
import Mathlib.Data.List.Perm.Basic

namespace Matching

variable {α γ : Type*} (eq : α → α → Bool) (hashed : α → γ) {l l' : List α} {x y : α}

/-- On the elements of the list the equality is an equivalence, and equal
elements have the same data to hash. -/
structure Lawful (l : List α) : Prop where
  refl : ∀ x ∈ l, eq x x = true
  symm : ∀ x ∈ l, ∀ y ∈ l, eq x y = true → eq y x = true
  trans : ∀ x ∈ l, ∀ y ∈ l, ∀ z ∈ l, eq x y = true → eq y z = true → eq x z = true
  hash : ∀ x ∈ l, ∀ y ∈ l, eq x y = true → hashed x = hashed y

/-- The first element that is equal. -/
def first (l : List α) (x : α) : Option α := l.find? fun y => eq x y

/-- The first element that is equal, of those in the bucket. -/
def firstHashed (hash : γ → UInt64) (l : List α) (x : α) : Option α :=
  l.find? fun y => hash (hashed x) == hash (hashed y) && eq x y

/-- Elements are found as one if and only if they are equal, in any order of the
list and with any hash function. -/
structure Classes (l : List α) : Prop where
  search : ∀ l', l'.Perm l → ∀ x ∈ l, ∀ y ∈ l, (first eq l' x = first eq l' y ↔ eq x y = true)
  hashing : ∀ (hash : γ → UInt64) l', l'.Perm l → ∀ x ∈ l, ∀ y ∈ l,
    (firstHashed eq hashed hash l' x = firstHashed eq hashed hash l' y ↔ eq x y = true)

variable {eq hashed}

theorem lawful_of_iff (h : ∀ x ∈ l, ∀ y ∈ l, (eq x y = true ↔ hashed x = hashed y)) : Lawful eq hashed l where
  refl x hx := (h x hx x hx).mpr rfl
  symm x hx y hy hxy := (h y hy x hx).mpr ((h x hx y hy).mp hxy).symm
  trans x hx y hy z hz hxy hyz := (h x hx z hz).mpr (((h x hx y hy).mp hxy).trans ((h y hy z hz).mp hyz))
  hash x hx y hy := (h x hx y hy).mp

namespace Lawful

theorem perm (h : Lawful eq hashed l) (hl : l'.Perm l) : Lawful eq hashed l' where
  refl x hx := h.refl x (hl.mem_iff.mp hx)
  symm x hx y hy := h.symm x (hl.mem_iff.mp hx) y (hl.mem_iff.mp hy)
  trans x hx y hy z hz := h.trans x (hl.mem_iff.mp hx) y (hl.mem_iff.mp hy) z (hl.mem_iff.mp hz)
  hash x hx y hy := h.hash x (hl.mem_iff.mp hx) y (hl.mem_iff.mp hy)

theorem first_eq_iff (h : Lawful eq hashed l) (hx : x ∈ l) (hy : y ∈ l) :
    first eq l x = first eq l y ↔ eq x y = true := by
  constructor
  · intro hsame
    cases hfound : first eq l x with
    | none =>
      have := List.find?_eq_none.mp hfound x hx
      exact absurd (h.refl x hx) this
    | some z =>
      have hz : z ∈ l := List.mem_of_find?_eq_some hfound
      have hxz : eq x z = true := List.find?_some (p := fun y => eq x y) hfound
      have hyz : eq y z = true := List.find?_some (p := fun w => eq y w) (hsame ▸ hfound)
      exact h.trans x hx z hz y hy hxz (h.symm y hy z hz hyz)
  · intro hxy
    refine List.find?_congr fun z hz => ?_
    rw [Bool.eq_iff_iff]
    exact ⟨h.trans y hy x hx z hz (h.symm x hx y hy hxy), h.trans x hx y hy z hz hxy⟩

/-- Whoever is equal is in the same bucket. -/
theorem firstHashed_eq (h : Lawful eq hashed l) (hx : x ∈ l) (hash : γ → UInt64) :
    firstHashed eq hashed hash l x = first eq l x := by
  refine List.find?_congr fun y hy => ?_
  cases hxy : eq x y with
  | false => rw [Bool.and_false]
  | true => rw [h.hash x hx y hy hxy, beq_self_eq_true, Bool.true_and]

theorem classes (h : Lawful eq hashed l) : Classes eq hashed l where
  search l' hl x hx y hy := (h.perm hl).first_eq_iff (hl.mem_iff.mpr hx) (hl.mem_iff.mpr hy)
  hashing hash l' hl x hx y hy := by
    rw [(h.perm hl).firstHashed_eq (hl.mem_iff.mpr hx), (h.perm hl).firstHashed_eq (hl.mem_iff.mpr hy)]
    exact (h.perm hl).first_eq_iff (hl.mem_iff.mpr hx) (hl.mem_iff.mpr hy)

end Lawful

end Matching
