/-
The lines of an SQL query over tables with primary keys: left joins on a
primary key, conditions, and `ORDER BY`.
-/
import Netvisor.Lib.Table
import Mathlib.Order.WithBot

namespace Sql

variable {κ : Type*}

/-- A row of a table. `⊤` stands for `NULL`, which `ASC` puts last and `DESC` first. -/
structure Row (κ : Type*) where
  id : κ
  columns : String → WithTop κ := fun _ => ⊤
  /-- By column and key, what is under `details` in a column of JSON. -/
  details : String → String → WithTop κ := fun _ _ => ⊤

structure Database (κ : Type*) where
  tables : String → Table (Row κ) Row.id
  /-- The text `''`. -/
  emptyText : κ

inductive Expr
  /-- `source.name` -/
  | column (source name : String)
  /-- `COALESCE(source.name, '')` -/
  | coalesce (source name : String)
  /-- `(source.name->'details'->>'key')::uuid` -/
  | detail (source name key : String)
deriving DecidableEq, Repr

/-- A line of a query: a row of the table it is on, and for each name in scope its row, if it has one. -/
structure Line (κ : Type*) where
  row : Row κ
  sources : String → Option (Row κ)

/-- `LEFT JOIN table AS name ON on = name.id` -/
structure LeftJoin where
  table : String
  name : String
  on : Expr
deriving DecidableEq, Repr

inductive Direction
  | asc
  | desc
deriving DecidableEq, Repr

/-- One part of an `ORDER BY`. -/
structure Part where
  expr : Expr
  direction : Direction
deriving DecidableEq, Repr

variable (db : Database κ)

def Line.of (table : String) (r : Row κ) : Line κ where
  row := r
  sources name := if name = table then some r else none

def Line.bind (line : Line κ) (name : String) (r : Option (Row κ)) : Line κ where
  row := line.row
  sources := Function.update line.sources name r

@[simp] theorem Line.bind_row (line : Line κ) (name : String) (r : Option (Row κ)) :
    (line.bind name r).row = line.row := rfl

def Expr.eval (line : Line κ) : Expr → WithTop κ
  | column source name => (line.sources source).elim ⊤ fun r => r.columns name
  | coalesce source name =>
    match (line.sources source).elim ⊤ fun r => r.columns name with
    | ⊤ => db.emptyText
    | (k : κ) => k
  | detail source name key => (line.sources source).elim ⊤ fun r => r.details name key

section

variable [DecidableEq κ]

/-- A line for each row that matches, or one without a row where none does. -/
def LeftJoin.lines (j : LeftJoin) (line : Line κ) : List (Line κ) :=
  match (db.tables j.table).rows.filter fun r => j.on.eval db line = r.id with
  | [] => [line.bind j.name none]
  | rs => rs.map fun r => line.bind j.name (some r)

/-- `FROM table` with its joins. -/
def source (table : String) (joins : List LeftJoin) : List (Line κ) :=
  joins.foldl (fun lines j => lines.flatMap (j.lines db)) ((db.tables table).rows.map (Line.of table))

variable {db} {table : String} {joins : List LeftJoin}

/-- A join on a primary key makes one line of each. -/
theorem LeftJoin.exists_lines (j : LeftJoin) (line : Line κ) : ∃ r, j.lines db line = [line.bind j.name r] := by
  unfold lines
  have hnodup := (db.tables j.table).nodup
  split
  · exact ⟨none, rfl⟩
  · next rs hne =>
    cases hrs : (db.tables j.table).rows.filter fun r => j.on.eval db line = r.id with
    | nil => exact absurd hrs hne
    | cons r rs =>
      have hmem : ∀ x ∈ r :: rs, x ∈ (db.tables j.table).rows ∧ j.on.eval db line = x.id := by
        intro x hx
        rw [← hrs, List.mem_filter] at hx
        exact ⟨hx.1, of_decide_eq_true hx.2⟩
      cases rs with
      | nil => exact ⟨some r, rfl⟩
      | cons x rs =>
        have hsub : (r :: x :: rs).Sublist (db.tables j.table).rows := hrs ▸ List.filter_sublist
        have hid : r.id = x.id := by
          have hr := (hmem r (by simp)).2
          have hx := (hmem x (by simp)).2
          exact WithTop.coe_injective (hr.symm.trans hx)
        have := (hsub.map Row.id).nodup hnodup
        simp [hid] at this

/-- The joined query has a line for each row of the table. -/
theorem exists_source (table : String) (joins : List LeftJoin) :
    ∃ line : Row κ → Line κ, (∀ r, (line r).row = r) ∧ source db table joins = (db.tables table).rows.map line := by
  suffices h : ∀ line : Row κ → Line κ, (∀ r, (line r).row = r) → ∃ line' : Row κ → Line κ, (∀ r, (line' r).row = r) ∧
      joins.foldl (fun lines j => lines.flatMap (j.lines db)) ((db.tables table).rows.map line) =
        (db.tables table).rows.map line' from h (Line.of table) fun _ => rfl
  induction joins with
  | nil => exact fun line hrow => ⟨line, hrow, rfl⟩
  | cons j joins ih =>
    intro line hrow
    choose joined hjoined using fun r => (j.exists_lines (line r) : ∃ x, j.lines db (line r) = _)
    obtain ⟨line', hrow', hlines⟩ := ih (fun r => (line r).bind j.name (joined r)) hrow
    refine ⟨line', hrow', ?_⟩
    rw [List.foldl_cons, ← hlines]
    congr 1
    simp only [List.flatMap_map, hjoined]
    exact List.map_eq_flatMap.symm

end

/-! ## `ORDER BY` -/

section

variable [LinearOrder κ]

def Part.Before (p : Part) (a b : Line κ) : Prop :=
  match p.direction with
  | .asc => p.expr.eval db a < p.expr.eval db b
  | .desc => p.expr.eval db b < p.expr.eval db a

/-- Whether `a` may come before `b`: the first part that tells them apart decides. -/
def orderLe : List Part → Line κ → Line κ → Prop
  | [], _, _ => True
  | p :: ps, a, b => p.Before db a b ∨ p.expr.eval db a = p.expr.eval db b ∧ orderLe ps a b

instance (p : Part) (a b : Line κ) : Decidable (p.Before db a b) := by
  unfold Part.Before
  split <;> infer_instance

instance decidableOrderLe : (parts : List Part) → DecidableRel (orderLe db parts)
  | [], _, _ => .isTrue trivial
  | _ :: ps, a, b =>
    have := decidableOrderLe ps a b
    inferInstanceAs (Decidable (_ ∨ _ ∧ _))

instance (parts : List Part) : Std.Total (orderLe db parts) := by
  constructor
  intro a b
  induction parts with
  | nil => exact .inl trivial
  | cons p ps ih =>
    rcases lt_trichotomy (p.expr.eval db a) (p.expr.eval db b) with h | h | h
    all_goals simp only [orderLe, Part.Before]; split
    all_goals grind

instance (parts : List Part) : IsTrans (Line κ) (orderLe db parts) := by
  constructor
  intro a b c hab hbc
  induction parts with
  | nil => trivial
  | cons p ps ih =>
    simp only [orderLe, Part.Before] at hab hbc ⊢
    split at hab <;> grind

end

end Sql
