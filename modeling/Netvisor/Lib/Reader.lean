/-
Readers of texts: one takes a value off the front of a text, or takes nothing.

A number written in a radix up to 16 is read back by `number` of the same radix,
whatever follows it that is no digit.
-/
import Mathlib.Algebra.Group.Nat.Defs
import Mathlib.Data.List.Basic

/-- A value off the front of a text, and what is left of the text. -/
abbrev Reader (α : Type) := List Char → Option (α × List Char)

namespace Reader

variable {α : Type} {radix : Nat}

def toDigit (radix : Nat) (c : Char) : Option Nat :=
  let digit :=
    if '0' ≤ c ∧ c ≤ '9' then some (c.toNat - '0'.toNat)
    else if 'a' ≤ c ∧ c ≤ 'z' then some (c.toNat - 'a'.toNat + 10)
    else if 'A' ≤ c ∧ c ≤ 'Z' then some (c.toNat - 'A'.toNat + 10)
    else none
  digit.filter fun d => d < radix

/-- The digits at the front. -/
def digits (radix : Nat) : List Char → List Nat × List Char
  | [] => ([], [])
  | c :: text =>
    match toDigit radix c with
    | some d => (d :: (digits radix text).1, (digits radix text).2)
    | none => ([], c :: text)

def value (radix : Nat) (ds : List Nat) : Nat := ds.foldl (fun n d => n * radix + d) 0

/-- A number below `bound` of at most `width` digits. -/
def number (radix width bound : Nat) (leadingZeros : Bool) : Reader Nat := fun text =>
  let ds := (digits radix text).1
  if ds = [] ∨ width < ds.length then none
  else if leadingZeros = false ∧ ds.head? = some 0 ∧ 1 < ds.length then none
  else if value radix ds < bound then some (value radix ds, (digits radix text).2)
  else none

def char (c : Char) : Reader Unit
  | [] => none
  | d :: text => if d = c then some ((), text) else none

/-- What follows the separator, which the first of a row does not need. -/
def separator (sep : Char) (index : Nat) (inner : Reader α) : Reader α := fun text =>
  if index = 0 then inner text
  else do
    let (_, text) ← char sep text
    inner text

/-- The whole text is one value. -/
def parseWith (inner : Reader α) (text : String) : Option α :=
  match inner text.toList with
  | some (a, []) => some a
  | _ => none

/-! ## What is read back -/

@[simp] theorem char_cons (c : Char) (text : List Char) : char c (c :: text) = some ((), text) := by simp [char]

@[simp] theorem char_nil (c : Char) : char c [] = none := rfl

theorem char_cons_of_ne {c d : Char} (text : List Char) (h : d ≠ c) : char c (d :: text) = none := by simp [char, h]

@[simp] theorem separator_zero (sep : Char) (inner : Reader α) : separator sep 0 inner = inner := rfl

@[simp] theorem separator_succ (sep : Char) (index : Nat) (inner : Reader α) (text : List Char) :
    separator sep (index + 1) inner text = (char sep text).bind fun p => inner p.2 := rfl

@[simp] theorem value_nil : value radix [] = 0 := rfl

@[simp] theorem value_concat (ds : List Nat) (d : Nat) : value radix (ds ++ [d]) = value radix ds * radix + d := by
  simp [value]

theorem char_eq_none {c : Char} {text : List Char} (h : c ∉ text) : char c text = none := by
  cases text with
  | nil => rfl
  | cons d text => exact char_cons_of_ne text fun e => h (by simp [e])

/-- What is left after the digits is the end of the text. -/
theorem digits_rest_suffix (text : List Char) : (digits radix text).2 <:+ text := by
  induction text with
  | nil => exact List.suffix_refl []
  | cons c text ih =>
    unfold digits
    split
    · exact ih.trans (List.suffix_cons c text)
    · exact List.suffix_refl _

theorem number_rest_suffix {width bound n : Nat} {leadingZeros : Bool} {text rest : List Char}
    (h : number radix width bound leadingZeros text = some (n, rest)) : rest <:+ text := by
  simp only [number] at h
  split at h
  · cases h
  · split at h
    · cases h
    · split at h
      · cases h
        exact digits_rest_suffix text
      · cases h

theorem toDigit_digitChar {d : Nat} (hd : d < radix) (hradix : radix ≤ 16) :
    toDigit radix d.digitChar = some d := by
  have all : ∀ r < 17, ∀ d < r, toDigit r d.digitChar = some d := by decide
  exact all radix (by omega) d hd

/-- The text does not go on with a digit. -/
def Stops (radix : Nat) (rest : List Char) : Prop := (digits radix rest).1 = []

@[simp] theorem stops_nil : Stops radix [] := rfl

theorem stops_cons {c : Char} (rest : List Char) (h : toDigit radix c = none) : Stops radix (c :: rest) := by
  simp [Stops, digits, h]

theorem number_of_stops {rest : List Char} (h : Stops radix rest) (width bound : Nat) (leadingZeros : Bool) :
    number radix width bound leadingZeros rest = none := by
  have : (digits radix rest).1 = [] := h
  simp [number, this]

theorem digits_of_stops : ∀ {rest : List Char}, Stops radix rest → digits radix rest = ([], rest)
  | [], _ => rfl
  | c :: rest, h => by
    unfold Stops at h
    unfold digits at h ⊢
    split
    · next hd => simp [hd] at h
    · rfl

theorem digits_map_append {ds : List Nat} {rest : List Char} (hradix : radix ≤ 16)
    (hds : ∀ d ∈ ds, d < radix) (hrest : Stops radix rest) :
    digits radix (ds.map Nat.digitChar ++ rest) = (ds, rest) := by
  induction ds with
  | nil => exact digits_of_stops hrest
  | cons d ds ih =>
    have hd : toDigit radix d.digitChar = some d := toDigit_digitChar (hds d (by simp)) hradix
    have htail := ih fun x hx => hds x (by simp [hx])
    simp only [List.map_cons, List.cons_append, digits, hd, htail]

/-- The digits a number is written with: below the radix, of its value, with no zero in front. -/
theorem toDigits_eq_map (hradix : 1 < radix) (n : Nat) :
    ∃ ds : List Nat, Nat.toDigits radix n = ds.map Nat.digitChar ∧ (∀ d ∈ ds, d < radix) ∧
      value radix ds = n ∧ (ds.head? = some 0 → n = 0) := by
  induction n using Nat.strongRecOn with
  | ind n ih =>
    by_cases hn : n < radix
    · refine ⟨[n], Nat.toDigits_of_lt_base hn, by simpa using hn, by simp [value], by simp⟩
    · have hle : radix ≤ n := by omega
      obtain ⟨ds, htext, hlt, hvalue, hzero⟩ := ih (n / radix) (Nat.div_lt_self (by omega) hradix)
      have hmod : n % radix < radix := Nat.mod_lt _ (by omega)
      have hpos : 0 < n / radix := Nat.div_pos hle (by omega)
      refine ⟨ds ++ [n % radix], ?_, ?_, ?_, ?_⟩
      · rw [Nat.toDigits_of_base_le hradix hle, htext]
        simp
      · intro d hd
        rcases List.mem_append.mp hd with h | h
        · exact hlt d h
        · rw [List.mem_singleton.mp h]
          exact hmod
      · rw [value_concat, hvalue, Nat.div_add_mod']
      · intro h
        cases ds with
        | nil => simp at hvalue; omega
        | cons d ds =>
          have := hzero (by simpa using h)
          omega

/-- A number is read back from its digits. -/
theorem number_toDigits {n width bound : Nat} {rest : List Char} (leadingZeros : Bool)
    (hradix : 1 < radix) (h16 : radix ≤ 16) (hwidth : 0 < width) (hbound : bound ≤ radix ^ width)
    (hn : n < bound) (hrest : Stops radix rest) :
    number radix width bound leadingZeros (Nat.toDigits radix n ++ rest) = some (n, rest) := by
  obtain ⟨ds, htext, hlt, hvalue, hzero⟩ := toDigits_eq_map hradix n
  have hlength : ds.length ≤ width := by
    have := (Nat.length_toDigits_le_iff hradix hwidth).mpr (show n < radix ^ width by omega)
    simpa [htext] using this
  have hne : ds ≠ [] := by
    intro h
    exact Nat.toDigits_ne_nil (by rw [htext, h]; rfl)
  have hread := digits_map_append h16 hlt hrest
  -- a number with a zero in front is zero, which is one digit long
  have hfront : ¬ (leadingZeros = false ∧ ds.head? = some 0 ∧ 1 < ds.length) := by
    intro ⟨_, h0, h1⟩
    have h : ds.length = (Nat.toDigits radix n).length := by simp [htext]
    rw [hzero h0, Nat.toDigits_zero] at h
    simp at h
    omega
  unfold number
  rw [htext, hread]
  simp only [hvalue]
  rw [if_neg (by simp [hne]; omega), if_neg hfront, if_pos hn]

end Reader
