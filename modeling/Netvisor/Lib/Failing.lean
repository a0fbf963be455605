/-
Programs whose statements may fail.

A program works on a store through single statements. What becomes of them is
planned: the next statements run, or fail with an error that their store has
nothing to do with. A statement that fails leaves the store alone, and a
transaction that fails leaves the store as it was when the transaction began;
the statements before it stay.
-/
import Netvisor.Lib.Program

namespace Failing

open Program (wp)

universe u

variable {ε σ α β : Type u}

/-- A store, and how the next statements fail, if they do. -/
structure Planned (ε σ : Type u) where
  store : σ
  faults : List (Option ε) := []

namespace Planned

/-- How the next statement fails. -/
def fault (s : Planned ε σ) : Option ε := s.faults.head?.join

/-- The store after a statement. -/
def next (s : Planned ε σ) (store : σ) : Planned ε σ := { store, faults := s.faults.tail }

@[simp] theorem next_store {s : Planned ε σ} {store : σ} : (s.next store).store = store := rfl

@[simp] theorem next_faults {s : Planned ε σ} {store : σ} : (s.next store).faults = s.faults.tail := rfl

end Planned

/-- One statement. -/
def statement (p : EStateM ε σ α) : EStateM ε (Planned ε σ) α := fun s =>
  match s.fault with
  | some e => .error e (s.next s.store)
  | none =>
    match p s.store with
    | .ok a store => .ok a (s.next store)
    | .error e _ => .error e (s.next s.store)

/-- All statements of the program, or none of them. -/
def transaction (p : EStateM ε (Planned ε σ) α) : EStateM ε (Planned ε σ) α := fun s =>
  match p s with
  | .ok a t => .ok a t
  | .error e t => .error e { t with store := s.store }

/-- A program for a part of the store. -/
def within {τ : Type u} (part : σ → τ) (put : τ → σ → σ) (p : EStateM ε (Planned ε τ) α) :
    EStateM ε (Planned ε σ) α := fun s =>
  match p { store := part s.store, faults := s.faults } with
  | .ok a t => .ok a { store := put t.store s.store, faults := t.faults }
  | .error e t => .error e { store := put t.store s.store, faults := t.faults }

variable {s : Planned ε σ} {Q : α → Planned ε σ → Prop} {E : ε → Planned ε σ → Prop}

@[simp] theorem wp_statement {p : EStateM ε σ α} : wp (statement p) Q E s ↔
    (∀ e, s.fault = some e → E e (s.next s.store)) ∧
      (s.fault = none → wp p (fun a store => Q a (s.next store)) (fun e _ => E e (s.next s.store)) s.store) := by
  simp only [wp, statement]
  cases s.fault with
  | some e => simp
  | none =>
    simp only [reduceCtorEq, false_implies, implies_true, true_and, forall_const]
    cases p s.store <;> exact Iff.rfl

@[simp] theorem wp_transaction {p : EStateM ε (Planned ε σ) α} :
    wp (transaction p) Q E s ↔ wp p Q (fun e t => E e { t with store := s.store }) s := by
  simp only [wp, transaction]
  cases p s <;> exact Iff.rfl

@[simp] theorem wp_within {τ : Type u} {part : σ → τ} {put : τ → σ → σ} {p : EStateM ε (Planned ε τ) α} :
    wp (within part put p) Q E s ↔
      wp p (fun a t => Q a { store := put t.store s.store, faults := t.faults })
        (fun e t => E e { store := put t.store s.store, faults := t.faults })
        { store := part s.store, faults := s.faults } := by
  simp only [wp, within]
  cases p { store := part s.store, faults := s.faults } <;> exact Iff.rfl

/-! ## What a failure leaves -/

/-- A failure leaves the store as it was. -/
def AllOrNothing (p : EStateM ε (Planned ε σ) α) : Prop :=
  ∀ s, wp p (fun _ _ => True) (fun _ t => t.store = s.store) s

/-- The store stays as it was. -/
def ReadsOnly (p : EStateM ε (Planned ε σ) α) : Prop :=
  ∀ s, wp p (fun _ t => t.store = s.store) (fun _ t => t.store = s.store) s

theorem AllOrNothing.statement {p : EStateM ε σ α} : AllOrNothing (statement p) := fun s => by
  rw [wp_statement]
  exact ⟨fun _ _ => rfl, fun _ => Program.wp.of_forall (fun _ _ => trivial) fun _ _ => rfl⟩

theorem AllOrNothing.transaction {p : EStateM ε (Planned ε σ) α} : AllOrNothing (transaction p) := fun s => by
  rw [wp_transaction]
  exact Program.wp.of_forall (fun _ _ => trivial) fun _ _ => rfl

namespace ReadsOnly

variable {p : EStateM ε (Planned ε σ) α} {f : α → EStateM ε (Planned ε σ) β}

theorem statement {p : EStateM ε σ α} (h : ∀ store, wp p (fun _ t => t = store) (fun _ _ => True) store) :
    ReadsOnly (Failing.statement p) := fun s => by
  rw [wp_statement]
  exact ⟨fun _ _ => rfl, fun _ => (h s.store).mono (fun _ _ ht => ht) fun _ _ _ => rfl⟩

theorem pure {a : α} : ReadsOnly (ε := ε) (σ := σ) (Pure.pure a) := fun _ => rfl

theorem throw {e : ε} : ReadsOnly (α := α) (σ := σ) (throw e) := fun _ => rfl

theorem bind (hp : ReadsOnly p) (hf : ∀ a, ReadsOnly (f a)) : ReadsOnly (p >>= f) := fun s => by
  rw [Program.wp_bind]
  exact (hp s).mono (fun a t ht => ht ▸ hf a t) fun _ _ ht => ht

end ReadsOnly

/-! ## Without failures -/

/-- The program where its statements fail only by themselves. -/
def calm (p : EStateM ε (Planned ε σ) α) : EStateM ε σ α := fun s =>
  match p { store := s } with
  | .ok a t => .ok a t.store
  | .error e t => .error e t.store

theorem wp_calm {p : EStateM ε (Planned ε σ) α} {Q : α → σ → Prop} {E : ε → σ → Prop} {s : σ} :
    wp (calm p) Q E s ↔ wp p (fun a t => Q a t.store) (fun e t => E e t.store) { store := s } := by
  simp only [wp, calm]
  cases p { store := s } <;> exact Iff.rfl

/-- If no statement was to fail, none is to fail from here. -/
def StaysCalm (s t : Planned ε σ) : Prop := s.faults = [] → t.faults = []

instance : IsPreorder (Planned ε σ) StaysCalm where
  refl _ h := h
  trans _ _ _ h h' hs := h' (h hs)

namespace StaysCalm

theorem statement {p : EStateM ε σ α} : Program.Keeps StaysCalm (Failing.statement p) := fun s => by
  have hnext (store : σ) : StaysCalm s (s.next store) := fun h => by rw [Planned.next_faults, h]; rfl
  rw [wp_statement]
  exact ⟨fun _ _ => hnext _, fun _ => Program.wp.of_forall (fun _ _ => hnext _) fun _ _ => hnext _⟩

theorem transaction {p : EStateM ε (Planned ε σ) α} (h : Program.Keeps StaysCalm p) :
    Program.Keeps StaysCalm (Failing.transaction p) := fun s => wp_transaction.mpr (h s)

theorem within {τ : Type u} {part : σ → τ} {put : τ → σ → σ} {p : EStateM ε (Planned ε τ) α}
    (h : Program.Keeps StaysCalm p) : Program.Keeps StaysCalm (Failing.within part put p) :=
    fun _ => wp_within.mpr (h _)

end StaysCalm

end Failing
