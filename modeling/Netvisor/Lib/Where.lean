/-
`WHERE` clauses with numbered placeholders: the text of a clause, the
placeholders in a text, and the rows that a clause selects with the values bound
to it.

Conditions are joined by `AND`, and an `OR` stands in parentheses only. A
condition is met where it is true, so one on `NULL` is not.
-/
import Mathlib.Data.List.Basic

universe u

namespace Clause

/-! ## Placeholders in a text -/

/-- The numbers after `$`, where a number has been read up to here or none is. -/
def scan : Option Nat → List Char → List Nat
  | none, [] => []
  | some n, [] => [n]
  | none, c :: cs => if c = '$' then scan (some 0) cs else scan none cs
  | some n, c :: cs =>
    if c.isDigit then scan (some (10 * n + (c.toNat - '0'.toNat))) cs
    else n :: if c = '$' then scan (some 0) cs else scan none cs

def placeholdersOf (sql : String) : List Nat := scan none sql.toList

def NoDigitFirst (cs : List Char) : Prop := ∀ c ∈ cs.head?, c.isDigit = false

/-- A text without placeholders that does not go on with a number. -/
def Plain (s : String) : Prop := NoDigitFirst s.toList ∧ '$' ∉ s.toList

instance : (cs : List Char) → Decidable (NoDigitFirst cs)
  | [] => .isTrue fun _ hc => nomatch hc
  | c :: _ => decidable_of_iff (c.isDigit = false) ⟨fun h _ hc => Option.some.inj hc ▸ h, fun h => h c rfl⟩

instance (s : String) : Decidable (Plain s) := inferInstanceAs (Decidable (_ ∧ _))

/-- The placeholders of the text are these, whatever it stands before. -/
structure Reads (s : String) (ks : List Nat) : Prop where
  first : NoDigitFirst s.toList
  scan : ∀ rest, NoDigitFirst rest → scan none (s.toList ++ rest) = ks ++ scan none rest

section Reading

variable {s t : String} {ks ls : List Nat} {cs rest : List Char}

theorem scan_none_cons (c : Char) (cs : List Char) :
    scan none (c :: cs) = if c = '$' then scan (some 0) cs else scan none cs := rfl

theorem scan_some_cons (n : Nat) (c : Char) (cs : List Char) : scan (some n) (c :: cs) =
    if c.isDigit then scan (some (10 * n + (c.toNat - '0'.toNat))) cs
    else n :: if c = '$' then scan (some 0) cs else scan none cs := rfl

theorem scan_notMem (h : '$' ∉ cs) : scan none (cs ++ rest) = scan none rest := by
  induction cs with
  | nil => rfl
  | cons c cs ih =>
    rw [List.mem_cons, not_or] at h
    rw [List.cons_append, scan_none_cons, if_neg (Ne.symm h.1), ih h.2]

theorem scan_digits (h : ∀ c ∈ cs, c.isDigit = true) (n : Nat) :
    scan (some n) (cs ++ rest) = scan (some (Nat.ofDigitChars 10 cs n)) rest := by
  induction cs generalizing n with
  | nil => rfl
  | cons c cs ih =>
    rw [List.cons_append, scan_some_cons, if_pos (h c List.mem_cons_self),
      ih fun c' hc' => h c' (List.mem_cons_of_mem c hc'), Nat.ofDigitChars_cons]

theorem scan_some (h : NoDigitFirst rest) (n : Nat) : scan (some n) rest = n :: scan none rest := by
  cases rest with
  | nil => rfl
  | cons c cs =>
    have hc : c.isDigit = false := h c rfl
    rw [scan_some_cons, hc]
    rfl

theorem noDigitFirst_append (hs : NoDigitFirst cs) (ht : NoDigitFirst rest) : NoDigitFirst (cs ++ rest) := by
  cases cs with
  | nil => exact ht
  | cons c cs => exact hs

theorem Reads.of_plain (h : Plain s) : Reads s [] := ⟨h.1, fun _ _ => scan_notMem h.2⟩

theorem Reads.append (hs : Reads s ks) (ht : Reads t ls) : Reads (s ++ t) (ks ++ ls) where
  first := by
    rw [String.toList_append]
    exact noDigitFirst_append hs.first ht.first
  scan rest hrest := by
    rw [String.toList_append, List.append_assoc, hs.scan _ (noDigitFirst_append ht.first hrest), ht.scan rest hrest,
      List.append_assoc]

theorem Reads.placeholder (n : Nat) : Reads ("$" ++ toString n) [n] where
  first := by
    rw [String.toList_append]
    exact fun c hc => by cases hc; rfl
  scan rest hrest := by
    rw [String.toList_append, List.append_assoc, Nat.toString_eq_repr, Nat.toList_repr]
    change Clause.scan (some 0) (Nat.toDigits 10 n ++ rest) = _
    rw [scan_digits (fun c hc => Nat.isDigit_of_mem_toDigits (by omega) (by omega) hc), Nat.ofDigitChars_ten_toDigits,
      scan_some hrest]
    rfl

theorem Reads.intercalate {α : Type u} {sep : String} {f : α → String} {g : α → List Nat} (hsep : Plain sep) :
    ∀ {xs : List α}, (∀ x ∈ xs, Reads (f x) (g x)) → Reads (sep.intercalate (xs.map f)) (xs.flatMap g)
  | [], _ => .of_plain (by rw [List.map_nil, String.intercalate_nil]; decide)
  | [x], h => by
    rw [List.map_singleton, String.intercalate_singleton, List.flatMap_singleton]
    exact h x List.mem_cons_self
  | x :: y :: xs, h => by
    have hrest : Reads _ _ := Reads.intercalate hsep fun z hz => h z (List.mem_cons_of_mem x hz)
    rw [List.map_cons, List.map_cons, String.intercalate_cons_cons, List.flatMap_cons]
    rw [List.map_cons] at hrest
    have hfirst := (h x List.mem_cons_self).append (Reads.of_plain hsep)
    rw [List.append_nil] at hfirst
    exact hfirst.append hrest

theorem Reads.placeholdersOf (h : Reads s ks) : placeholdersOf s = ks := by
  have hscan := h.scan [] fun _ hc => nomatch hc
  rw [List.append_nil] at hscan
  exact hscan.trans (List.append_nil ks)

end Reading

/-! ## Conditions -/

/-- A name of the schema. -/
structure Name where
  text : String
  plain : Plain text

/-- A column, of a table that is named or of the one at hand. -/
structure Column where
  table : Option Name := none
  name : Name

inductive Op
  | eq
  | lt
deriving DecidableEq, Repr

inductive Atom
  /-- `column = $n` or `column < $n` -/
  | compare (column : Column) (op : Op) (placeholder : Nat)
  /-- `column IN ($n, …)` -/
  | isIn (column : Column) (placeholders : List Nat)
  | isNull (column : Column)
  | isNotNull (column : Column)
  /-- `FALSE` -/
  | never
  /-- `column->>'key' = 'text'` -/
  | jsonText (column : Column) (key text : Name)
  /-- `(column->>'key')::boolean = true` -/
  | jsonTrue (column : Column) (key : Name)

inductive Term
  | atom (a : Atom)
  /-- `column IN (SELECT … FROM table WHERE …)` -/
  | inSelect (column : Column) (select table : Name) (conditions : List Atom)

inductive Condition
  | term (t : Term)
  /-- `(… OR …)` -/
  | anyOf (terms : List Term)

/-! ## Their text -/

def Column.sql (c : Column) : String :=
  match c.table with
  | some table => table.text ++ "." ++ c.name.text
  | none => c.name.text

def Op.sql : Op → String
  | eq => " = "
  | lt => " < "

def placeholder (n : Nat) : String := "$" ++ toString n

def Atom.sql : Atom → String
  | compare column op n => column.sql ++ op.sql ++ placeholder n
  | isIn column ns => column.sql ++ " IN (" ++ ", ".intercalate (ns.map placeholder) ++ ")"
  | isNull column => column.sql ++ " IS NULL"
  | isNotNull column => column.sql ++ " IS NOT NULL"
  | never => "FALSE"
  | jsonText column key text => column.sql ++ "->>'" ++ key.text ++ "' = '" ++ text.text ++ "'"
  | jsonTrue column key => "(" ++ column.sql ++ "->>'" ++ key.text ++ "')::boolean = true"

def Term.sql : Term → String
  | atom a => a.sql
  | inSelect column select table conditions =>
    column.sql ++ " IN (SELECT " ++ select.text ++ " FROM " ++ table.text ++ " WHERE " ++
      " AND ".intercalate (conditions.map Atom.sql) ++ ")"

def Condition.sql : Condition → String
  | term t => t.sql
  | anyOf terms => "(" ++ " OR ".intercalate (terms.map Term.sql) ++ ")"

def Atom.placeholders : Atom → List Nat
  | compare _ _ n => [n]
  | isIn _ ns => ns
  | isNull _ | isNotNull _ | never | jsonText .. | jsonTrue .. => []

def Term.placeholders : Term → List Nat
  | atom a => a.placeholders
  | inSelect _ _ _ conditions => conditions.flatMap Atom.placeholders

def Condition.placeholders : Condition → List Nat
  | term t => t.placeholders
  | anyOf terms => terms.flatMap Term.placeholders

theorem Name.reads (n : Name) : Reads n.text [] := .of_plain n.plain

theorem Column.reads (c : Column) : Reads c.sql [] := by
  unfold Column.sql
  split
  · next table _ => exact (table.reads.append (.of_plain (by decide))).append c.name.reads
  · exact c.name.reads

theorem reads_placeholders (ns : List Nat) : Reads (", ".intercalate (ns.map placeholder)) ns := by
  have h : Reads (", ".intercalate (ns.map placeholder)) (ns.flatMap fun n => [n]) :=
    Reads.intercalate (by decide) fun n _ => Reads.placeholder n
  rwa [List.flatMap_singleton'] at h

theorem Atom.reads (a : Atom) : Reads a.sql a.placeholders := by
  cases a with
  | compare column op n =>
    have hop : Plain op.sql := by cases op <;> decide
    exact (column.reads.append (.of_plain hop)).append (.placeholder n)
  | isIn column ns =>
    have h := ((column.reads.append (.of_plain (s := " IN (") (by decide))).append (reads_placeholders ns)).append
      (.of_plain (s := ")") (by decide))
    simp only [List.nil_append, List.append_nil] at h
    exact h
  | isNull column => exact column.reads.append (.of_plain (by decide))
  | isNotNull column => exact column.reads.append (.of_plain (by decide))
  | never => exact .of_plain (by decide)
  | jsonText column key text =>
    exact ((((column.reads.append (.of_plain (by decide))).append key.reads).append (.of_plain (by decide))).append
      text.reads).append (.of_plain (by decide))
  | jsonTrue column key =>
    exact ((((Reads.of_plain (by decide)).append column.reads).append
      (.of_plain (by decide))).append key.reads).append
      (.of_plain (by decide))

theorem Term.reads (t : Term) : Reads t.sql t.placeholders := by
  cases t with
  | atom a => exact a.reads
  | inSelect column select table conditions =>
    have hconditions : Reads (" AND ".intercalate (conditions.map Atom.sql)) (conditions.flatMap Atom.placeholders) :=
      Reads.intercalate (by decide) fun a _ => a.reads
    have hhead := ((((column.reads.append (.of_plain (s := " IN (SELECT ") (by decide))).append select.reads).append
      (.of_plain (s := " FROM ") (by decide))).append table.reads).append (.of_plain (s := " WHERE ") (by decide))
    have h := (hhead.append hconditions).append (.of_plain (s := ")") (by decide))
    simp only [List.nil_append, List.append_nil] at h
    exact h

theorem Condition.reads (c : Condition) : Reads c.sql c.placeholders := by
  cases c with
  | term t => exact t.reads
  | anyOf terms =>
    have hterms : Reads (" OR ".intercalate (terms.map Term.sql)) (terms.flatMap Term.placeholders) :=
      Reads.intercalate (by decide) fun t _ => t.reads
    have h := ((Reads.of_plain (s := "(") (by decide)).append hterms).append (.of_plain (s := ")") (by decide))
    simp only [List.nil_append, List.append_nil] at h
    exact h

/-! ## What they mean -/

/-- A row of a table. `none` is `NULL`. -/
structure Row (ν : Type u) where
  columns : String → Option ν
  /-- By column and key, the text of what is in a column of JSON. -/
  details : String → String → Option String

section Meaning

variable {ν : Type u} [LT ν] (tables : String → List (Row ν)) (values : List ν) (row : Row ν)

/-- What is bound to a placeholder; the first is `$1`. -/
def bound (n : Nat) : Option ν := if n = 0 then none else values[n - 1]?

def Op.Holds : Op → ν → ν → Prop
  | eq, a, b => a = b
  | lt, a, b => a < b

/-- The value of a column is there, and so. -/
def Row.Has (column : Name) (p : ν → Prop) : Prop := ∃ a, row.columns column.text = some a ∧ p a

def Atom.Holds : Atom → Prop
  | compare column op n => row.Has column.name fun a => ∃ b, bound values n = some b ∧ op.Holds a b
  | isIn column ns => row.Has column.name fun a => ∃ n ∈ ns, bound values n = some a
  | isNull column => row.columns column.name.text = none
  | isNotNull column => row.Has column.name fun _ => True
  | never => False
  | jsonText column key text => row.details column.name.text key.text = some text.text
  | jsonTrue column key => row.details column.name.text key.text = some "true"

def Term.Holds : Term → Prop
  | atom a => a.Holds values row
  | inSelect column select table conditions => row.Has column.name fun a =>
    ∃ other ∈ tables table.text, (∀ c ∈ conditions, c.Holds values other) ∧ other.columns select.text = some a

def Condition.Holds : Condition → Prop
  | term t => t.Holds tables values row
  | anyOf terms => ∃ t ∈ terms, t.Holds tables values row

variable {tables values row}

theorem Atom.holds_compare {column : Column} {op : Op} {n : Nat} : (compare column op n).Holds values row ↔
    ∃ a, row.columns column.name.text = some a ∧ ∃ b, bound values n = some b ∧ op.Holds a b := Iff.rfl

theorem Atom.holds_isIn {column : Column} {ns : List Nat} : (isIn column ns).Holds values row ↔
    ∃ a, row.columns column.name.text = some a ∧ ∃ n ∈ ns, bound values n = some a := Iff.rfl

theorem Term.holds_atom {a : Atom} : (atom a).Holds tables values row ↔ a.Holds values row := Iff.rfl

theorem Term.holds_inSelect {column : Column} {select table : Name} {conditions : List Atom} :
    (inSelect column select table conditions).Holds tables values row ↔
      ∃ a, row.columns column.name.text = some a ∧ ∃ other ∈ tables table.text,
        (∀ c ∈ conditions, c.Holds values other) ∧ other.columns select.text = some a := Iff.rfl

theorem Condition.holds_term {t : Term} : (term t).Holds tables values row ↔ t.Holds tables values row := Iff.rfl

theorem Condition.holds_anyOf {terms : List Term} :
    (anyOf terms).Holds tables values row ↔ ∃ t ∈ terms, t.Holds tables values row := Iff.rfl

end Meaning

/-! ## Clauses with their values -/

/-- Conditions, and the values that their placeholders stand for. -/
structure Bound (ν : Type u) where
  conditions : List Condition := []
  values : List ν := []

def Atom.map (f : Nat → Nat) : Atom → Atom
  | compare column op n => compare column op (f n)
  | isIn column ns => isIn column (ns.map f)
  | a => a

def Term.map (f : Nat → Nat) : Term → Term
  | atom a => atom (a.map f)
  | inSelect column select table conditions => inSelect column select table (conditions.map (Atom.map f))

/-- The condition with other placeholders. -/
def Condition.map (f : Nat → Nat) : Condition → Condition
  | term t => term (t.map f)
  | anyOf terms => anyOf (terms.map (Term.map f))

section Map

variable {ν : Type u} [LT ν] {tables : String → List (Row ν)} {values values' : List ν} {row : Row ν} {f : Nat → Nat}

theorem Atom.placeholders_map (a : Atom) : (a.map f).placeholders = a.placeholders.map f := by
  cases a <;> rfl

theorem Term.placeholders_map (t : Term) : (t.map f).placeholders = t.placeholders.map f := by
  cases t with
  | atom a => exact a.placeholders_map
  | inSelect column select table conditions =>
    change (conditions.map (Atom.map f)).flatMap Atom.placeholders = (conditions.flatMap Atom.placeholders).map f
    simp only [List.flatMap_map, Atom.placeholders_map, List.map_flatMap]

theorem Condition.placeholders_map (c : Condition) : (c.map f).placeholders = c.placeholders.map f := by
  cases c with
  | term t => exact t.placeholders_map
  | anyOf terms =>
    change (terms.map (Term.map f)).flatMap Term.placeholders = (terms.flatMap Term.placeholders).map f
    simp only [List.flatMap_map, Term.placeholders_map, List.map_flatMap]

/-- What is bound to the placeholders is all that counts. -/
theorem Atom.holds_map (a : Atom) (h : ∀ n ∈ a.placeholders, bound values' (f n) = bound values n) :
    (a.map f).Holds values' row ↔ a.Holds values row := by
  cases a with
  | compare column op n =>
    have hn := h n (List.mem_singleton_self n)
    have hop (a : ν) : (∃ b, bound values' (f n) = some b ∧ op.Holds a b) ↔
        ∃ b, bound values n = some b ∧ op.Holds a b := by rw [hn]
    exact exists_congr fun a => and_congr_right fun _ => hop a
  | isIn column ns =>
    have hns (x : ν) : (∃ n ∈ ns.map f, bound values' n = some x) ↔ ∃ n ∈ ns, bound values n = some x := by
      constructor
      · rintro ⟨_, hm, hx⟩
        obtain ⟨n, hn, rfl⟩ := List.mem_map.mp hm
        exact ⟨n, hn, h n hn ▸ hx⟩
      · rintro ⟨n, hn, hx⟩
        exact ⟨f n, List.mem_map.mpr ⟨n, hn, rfl⟩, (h n hn).trans hx⟩
    exact exists_congr fun a => and_congr_right fun _ => hns a
  | isNull _ | isNotNull _ | never | jsonText _ _ _ | jsonTrue _ _ => exact Iff.rfl

theorem Term.holds_map (t : Term) (h : ∀ n ∈ t.placeholders, bound values' (f n) = bound values n) :
    (t.map f).Holds tables values' row ↔ t.Holds tables values row := by
  cases t with
  | atom a => exact a.holds_map h
  | inSelect column select table conditions =>
    have hconditions (other : Row ν) : (∀ c ∈ conditions.map (Atom.map f), c.Holds values' other) ↔
        ∀ c ∈ conditions, c.Holds values other := by
      rw [List.forall_mem_map]
      refine forall₂_congr fun c hc => c.holds_map fun n hn => h n ?_
      exact List.mem_flatMap.mpr ⟨c, hc, hn⟩
    refine exists_congr fun a => and_congr_right fun _ => exists_congr fun other => and_congr_right fun _ => ?_
    exact and_congr_left' (hconditions other)

theorem Condition.holds_map (c : Condition) (h : ∀ n ∈ c.placeholders, bound values' (f n) = bound values n) :
    (c.map f).Holds tables values' row ↔ c.Holds tables values row := by
  cases c with
  | term t => exact t.holds_map h
  | anyOf terms =>
    have hterm {t : Term} (ht : t ∈ terms) : (t.map f).Holds tables values' row ↔ t.Holds tables values row :=
      t.holds_map fun n hn => h n (List.mem_flatMap.mpr ⟨t, ht, hn⟩)
    constructor
    · rintro ⟨_, hm, hholds⟩
      obtain ⟨t, ht, rfl⟩ := List.mem_map.mp hm
      exact ⟨t, ht, (hterm ht).mp hholds⟩
    · rintro ⟨t, ht, hholds⟩
      exact ⟨t.map f, List.mem_map.mpr ⟨t, ht, rfl⟩, (hterm ht).mpr hholds⟩

theorem Atom.map_id (a : Atom) : a.map id = a := by
  cases a with
  | isIn column ns => rw [Atom.map, List.map_id]
  | compare _ _ _ | isNull _ | isNotNull _ | never | jsonText _ _ _ | jsonTrue _ _ => rfl

theorem Term.map_id (t : Term) : t.map id = t := by
  cases t with
  | atom a => rw [Term.map, a.map_id]
  | inSelect column select table conditions =>
    have hmap : Atom.map id = id := funext Atom.map_id
    rw [Term.map, hmap, List.map_id]

theorem Condition.map_id (c : Condition) : c.map id = c := by
  cases c with
  | term t => rw [Condition.map, t.map_id]
  | anyOf terms =>
    have hmap : Term.map id = id := funext Term.map_id
    rw [Condition.map, hmap, List.map_id]

theorem Condition.holds_congr (c : Condition) (h : ∀ n ∈ c.placeholders, bound values' n = bound values n) :
    c.Holds tables values' row ↔ c.Holds tables values row := by
  have hmap : (c.map id).Holds tables values' row ↔ c.Holds tables values row := c.holds_map h
  rwa [c.map_id] at hmap

omit [LT ν] in
theorem bound_append_left {n : Nat} (h : 1 ≤ n ∧ n ≤ values.length) :
    bound (values ++ values') n = bound values n := by
  have hne : ¬ n = 0 := by omega
  rw [bound, bound, if_neg hne, if_neg hne, List.getElem?_append_left (by omega)]

omit [LT ν] in
theorem bound_append_right {n : Nat} (h : 1 ≤ n) : bound (values ++ values')
    (values.length + n) = bound values' n := by
  have hne : ¬ values.length + n = 0 := by omega
  have hn : ¬ n = 0 := by omega
  have hsub : values.length + n - 1 - values.length = n - 1 := by omega
  rw [bound, bound, if_neg hne, if_neg hn, List.getElem?_append_right (by omega), hsub]

end Map

namespace Bound

variable {ν : Type u}

/-- The one clause after the other, whose placeholders go on from those of the first. -/
def append (b b' : Bound ν) : Bound ν where
  conditions := b.conditions ++ b'.conditions.map (Condition.map (b.values.length + ·))
  values := b.values ++ b'.values

def placeholders (b : Bound ν) : List Nat := b.conditions.flatMap Condition.placeholders

/-- The placeholders are `$1` to `$n`, where `n` values are bound. -/
def Numbered (b : Bound ν) : Prop := ∀ k, k ∈ b.placeholders ↔ 1 ≤ k ∧ k ≤ b.values.length

def Selects [LT ν] (b : Bound ν) (tables : String → List (Row ν)) (row : Row ν) : Prop :=
  ∀ c ∈ b.conditions, c.Holds tables b.values row

def sql (b : Bound ν) : String :=
  if b.conditions.isEmpty then "" else "WHERE " ++ " AND ".intercalate (b.conditions.map Condition.sql)

variable {b b' : Bound ν} {tables : String → List (Row ν)} {row : Row ν}

theorem placeholders_append :
    (b.append b').placeholders = b.placeholders ++ b'.placeholders.map (b.values.length + ·) := by
  simp only [placeholders, append, List.flatMap_append, List.flatMap_map, Condition.placeholders_map,
    List.map_flatMap]

theorem Numbered.append (h : b.Numbered) (h' : b'.Numbered) : (b.append b').Numbered := by
  intro k
  have hmem (n : Nat) : n ∈ b'.placeholders ↔ 1 ≤ n ∧ n ≤ b'.values.length := h' n
  rw [placeholders_append, List.mem_append, h k, List.mem_map]
  simp only [hmem, Bound.append, List.length_append]
  constructor
  · rintro (hk | ⟨n, hn, rfl⟩)
    · omega
    · omega
  · intro hk
    by_cases hle : k ≤ b.values.length
    · exact .inl ⟨hk.1, hle⟩
    · exact .inr ⟨k - b.values.length, by omega, by omega⟩

/-- **Each of the two clauses is met with its own values.** -/
theorem selects_append [LT ν] (h : b.Numbered) (h' : b'.Numbered) :
    (b.append b').Selects tables row ↔ b.Selects tables row ∧ b'.Selects tables row := by
  have hleft (c : Condition) (hc : c ∈ b.conditions) :
      c.Holds tables (b.values ++ b'.values) row ↔ c.Holds tables b.values row :=
    c.holds_congr fun n hn => bound_append_left ((h n).mp (List.mem_flatMap.mpr ⟨c, hc, hn⟩))
  have hright (c : Condition) (hc : c ∈ b'.conditions) :
      (c.map (b.values.length + ·)).Holds tables (b.values ++ b'.values) row ↔ c.Holds tables b'.values row :=
    c.holds_map fun n hn => bound_append_right ((h' n).mp (List.mem_flatMap.mpr ⟨c, hc, hn⟩)).1
  simp only [Selects, append, List.forall_mem_append, List.forall_mem_map]
  exact and_congr (forall₂_congr hleft) (forall₂_congr hright)

/-- The placeholders of the text are those of the conditions. -/
theorem placeholdersOf_sql (b : Bound ν) : placeholdersOf b.sql = b.placeholders := by
  unfold sql
  split
  · next hempty =>
    rw [placeholders, List.isEmpty_iff.mp hempty]
    rfl
  · have hconditions : Reads (" AND ".intercalate (b.conditions.map Condition.sql)) b.placeholders :=
      Reads.intercalate (by decide) fun c _ => c.reads
    have h := (Reads.of_plain (s := "WHERE ") (by decide)).append hconditions
    exact h.placeholdersOf

end Bound

end Clause
