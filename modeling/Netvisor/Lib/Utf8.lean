/-
UTF-8 as a machine that reads one byte after the other.

It emits each character, and `none` once for every longest run of bytes that
begins a character and does not end it, or for a byte that begins none.
-/
import Mathlib.Data.List.Basic

namespace Utf8

/-- A character under way: its bits so far, how many bytes follow the next one,
and the range of the next one. -/
structure Owed where
  bits : Nat
  following : Nat
  low : Nat
  high : Nat

/-- A byte between characters. -/
def first (b : Nat) : List (Option Char) × Option Owed :=
  if b < 0x80 then ([some (Char.ofNat b)], none)
  else if b < 0xC2 then ([none], none)
  else if b < 0xE0 then ([], some ⟨b - 0xC0, 0, 0x80, 0xBF⟩)
  -- no overlong forms and no surrogates
  else if b < 0xF0 then ([], some ⟨b - 0xE0, 1, if b = 0xE0 then 0xA0 else 0x80, if b = 0xED then 0x9F else 0xBF⟩)
  -- no overlong forms and nothing above U+10FFFF
  else if b < 0xF5 then ([], some ⟨b - 0xF0, 2, if b = 0xF0 then 0x90 else 0x80, if b = 0xF4 then 0x8F else 0xBF⟩)
  else ([none], none)

def step : Option Owed → Nat → List (Option Char) × Option Owed
  | none, b => first b
  | some o, b =>
    if o.low ≤ b ∧ b ≤ o.high then
      let bits := o.bits * 64 + (b - 0x80)
      match o.following with
      | 0 => ([some (Char.ofNat bits)], none)
      | n + 1 => ([], some ⟨bits, n, 0x80, 0xBF⟩)
    else (none :: (first b).1, (first b).2)

def run : Option Owed → List UInt8 → List (Option Char)
  | none, [] => []
  | some _, [] => [none]
  | owed, b :: bs => (step owed b.toNat).1 ++ run (step owed b.toNat).2 bs

def decode (bytes : List UInt8) : List (Option Char) := run none bytes

/-- The text, if all of it is UTF-8. -/
def fromUtf8 (bytes : List UInt8) : Option String :=
  if (decode bytes).all Option.isSome then some (String.ofList ((decode bytes).filterMap id)) else none

/-- What stands for bytes that are no character. -/
def replacement : Char := '\uFFFD'

/-- The text with what is not UTF-8 replaced. -/
def fromUtf8Lossy (bytes : List UInt8) : String :=
  String.ofList ((decode bytes).map fun c => c.getD replacement)

example : fromUtf8 [0x63, 0xC3, 0xA9] = some "cé" := by decide
example : fromUtf8Lossy [0x63, 0xE2, 0x82, 0x28] = "c\uFFFD(" := by decide

theorem fromUtf8Lossy_of_fromUtf8 {bytes : List UInt8} {t : String} (h : fromUtf8 bytes = some t) :
    fromUtf8Lossy bytes = t := by
  simp only [fromUtf8, Option.ite_none_right_eq_some, Option.some.injEq] at h
  obtain ⟨hall, rfl⟩ := h
  simp only [List.all_eq_true] at hall
  rw [fromUtf8Lossy]
  congr 1
  revert hall
  induction decode bytes with
  | nil => intro _; rfl
  | cons c cs ih =>
    intro hall
    obtain ⟨x, rfl⟩ := Option.isSome_iff_exists.mp (hall c (by simp))
    have htail := ih fun c hc => hall c (by simp [hc])
    simp only [List.map_cons, Option.getD_some, List.filterMap_cons, htail, id]

theorem replacement_mem {bytes : List UInt8} (h : fromUtf8 bytes = none) :
    replacement ∈ (fromUtf8Lossy bytes).toList := by
  simp only [fromUtf8, ite_eq_right_iff, reduceCtorEq, imp_false, List.all_eq_true, not_forall] at h
  obtain ⟨c, hc, hnone⟩ := h
  rw [fromUtf8Lossy, String.toList_ofList, List.mem_map]
  exact ⟨c, hc, by cases c with
    | none => rfl
    | some x => exact absurd rfl hnone⟩

/-- A byte emits at most one character more than were under way. -/
theorem length_step (owed : Option Owed) (b : Nat) :
    (step owed b).1.length + (step owed b).2.toList.length ≤ 1 + owed.toList.length := by
  have hfirst : (first b).1.length + (first b).2.toList.length ≤ 1 := by
    unfold first
    split_ifs <;> simp
  cases owed with
  | none => simpa [step] using hfirst
  | some o =>
    simp only [step]
    split
    · cases o.following <;> simp
    · simp only [List.length_cons, Option.toList_some, List.length_nil]
      omega

theorem length_run (owed : Option Owed) (bytes : List UInt8) :
    (run owed bytes).length ≤ bytes.length + owed.toList.length := by
  induction bytes generalizing owed with
  | nil => cases owed <;> simp [run]
  | cons b bs ih =>
    have hrun := ih (step owed b.toNat).2
    have hstep := length_step owed b.toNat
    rw [run, List.length_append, List.length_cons]
    omega

theorem length_fromUtf8_le {bytes : List UInt8} {t : String} (h : fromUtf8 bytes = some t) :
    t.toList.length ≤ bytes.length := by
  simp only [fromUtf8, Option.ite_none_right_eq_some, Option.some.injEq] at h
  obtain ⟨-, rfl⟩ := h
  rw [String.toList_ofList]
  exact Nat.le_trans (List.length_filterMap_le _ _) (length_run none bytes)

end Utf8
