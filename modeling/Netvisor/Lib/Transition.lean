/-
Transition systems given by a partial step function, and their runs as lists
of actions.

A run stops at the first action that is not enabled, so every list of actions
is a run. `Every` states a fact of each step a run takes, `Visits` a fact of
each state it goes through, and `Along` a condition on the actions it takes.
The rules carry facts about one step to the whole run: an invariant that the
steps keep as long as they meet the condition, and, for a property that fails
exactly at the steps breaking the condition, the equivalence of the two.

Two runs of one system, whose actions are related one by one, are a run of a
system of pairs. Where a run has to be taken to its last action, `run` is the
state that it ends in; a measure that every step decreases bounds its length.
-/
import Mathlib.Logic.Basic

namespace Transition

universe u v

variable {σ : Type u} {α : Type v} {step : σ → α → Option σ}

/-- Every step the run takes is related by `R`: state before, action, state after. -/
def Every (step : σ → α → Option σ) (R : σ → α → σ → Prop) : σ → List α → Prop
  | _, [] => True
  | s, a :: as =>
    match step s a with
    | none => True
    | some t => R s a t ∧ Every step R t as

/-- Every action the run takes meets `ok` in the state it is taken in. -/
def Along (step : σ → α → Option σ) (ok : σ → α → Prop) : σ → List α → Prop :=
  Every step fun s a _ => ok s a

/-- Every state the run goes through has `P`, the first one included. -/
def Visits (step : σ → α → Option σ) (P : σ → Prop) (s : σ) (as : List α) : Prop :=
  P s ∧ Every step (fun _ _ t => P t) s as

instance Every.decidable {R : σ → α → σ → Prop} [∀ s a t, Decidable (R s a t)] :
    ∀ (s : σ) (as : List α), Decidable (Every step R s as)
  | _, [] => .isTrue trivial
  | s, a :: as => by
    unfold Every
    exact match step s a with
      | none => .isTrue trivial
      | some t => @instDecidableAnd _ _ _ (Every.decidable t as)

instance {ok : σ → α → Prop} [∀ s a, Decidable (ok s a)] (s : σ) (as : List α) :
    Decidable (Along step ok s as) :=
  inferInstanceAs (Decidable (Every step (fun s a _ => ok s a) s as))

instance {P : σ → Prop} [∀ s, Decidable (P s)] (s : σ) (as : List α) :
    Decidable (Visits step P s as) :=
  inferInstanceAs (Decidable (P s ∧ Every step (fun _ _ t => P t) s as))

theorem every_cons {R : σ → α → σ → Prop} {s : σ} {a : α} {as : List α} :
    Every step R s (a :: as) ↔ ∀ t, step s a = some t → R s a t ∧ Every step R t as := by
  rw [Every]
  cases step s a <;> simp

theorem Every.mono {R S : σ → α → σ → Prop} (h : ∀ s a t, step s a = some t → R s a t → S s a t) :
    ∀ {s as}, Every step R s as → Every step S s as
  | _, [], _ => trivial
  | s, a :: as, hr => by
    rw [every_cons] at hr ⊢
    intro t ht
    obtain ⟨h1, h2⟩ := hr t ht
    exact ⟨h s a t ht h1, h2.mono h⟩

/-- A step relation that an invariant guarantees holds of every step of a run
whose steps meet the condition the invariant needs. -/
theorem Along.every {I : σ → Prop} {ok : σ → α → Prop} {R : σ → α → σ → Prop}
    (keep : ∀ s a t, I s → ok s a → step s a = some t → I t)
    (rel : ∀ s a t, I s → ok s a → step s a = some t → R s a t) :
    ∀ {s as}, I s → Along step ok s as → Every step R s as
  | _, [], _, _ => trivial
  | s, a :: as, hI, hr => by
    rw [Along, every_cons] at hr
    rw [every_cons]
    intro t ht
    obtain ⟨hok, hrest⟩ := hr t ht
    exact ⟨rel s a t hI hok ht, Along.every keep rel (keep s a t hI hok ht) hrest⟩

/-- An invariant holds throughout a run whose steps meet its condition. -/
theorem Along.visits {I P : σ → Prop} {ok : σ → α → Prop}
    (keep : ∀ s a t, I s → ok s a → step s a = some t → I t) (imp : ∀ s, I s → P s)
    {s : σ} {as : List α} (hI : I s) (hr : Along step ok s as) : Visits step P s as :=
  ⟨imp s hI, hr.every keep (fun s a t hI hok ht => imp t (keep s a t hI hok ht)) hI⟩

theorem along_of_forall_mem {ok : α → Prop} : ∀ {s : σ} {as : List α}, (∀ a ∈ as, ok a) →
    Along step (fun _ a => ok a) s as
  | _, [], _ => trivial
  | s, a :: as, h => by
    rw [Along, every_cons]
    rw [List.forall_mem_cons] at h
    exact fun t _ => ⟨h.1, along_of_forall_mem h.2⟩

theorem along_true (s : σ) (as : List α) : Along step (fun _ _ => True) s as :=
  along_of_forall_mem fun _ _ => trivial

/-- The same for an invariant that every step keeps. -/
theorem visits_of_inv {I P : σ → Prop} (keep : ∀ s a t, I s → step s a = some t → I t)
    (imp : ∀ s, I s → P s) {s : σ} (hI : I s) (as : List α) : Visits step P s as :=
  (along_true s as).visits (fun s a t hI _ ht => keep s a t hI ht) imp hI

/-- When every step that breaks the condition is one after which `R` fails,
`R` holds of every step exactly when all steps meet the condition. -/
theorem every_iff_along {I : σ → Prop} {ok : σ → α → Prop} {R : σ → α → σ → Prop}
    (keep : ∀ s a t, I s → ok s a → step s a = some t → I t)
    (rel : ∀ s a t, I s → ok s a → step s a = some t → R s a t)
    (need : ∀ s a t, I s → step s a = some t → R s a t → ok s a) {s : σ} {as : List α} (hI : I s) :
    Every step R s as ↔ Along step ok s as := by
  refine ⟨fun hr => ?_, fun hr => hr.every keep rel hI⟩
  induction as generalizing s with
  | nil => trivial
  | cons a as ih =>
    rw [every_cons] at hr
    rw [Along, every_cons]
    intro t ht
    obtain ⟨h1, h2⟩ := hr t ht
    have hok := need s a t hI ht h1
    exact ⟨hok, ih (keep s a t hI hok ht) h2⟩

/-- The states reached have `P`, one by one, exactly when all steps meet the condition. -/
theorem visits_iff_along {I P : σ → Prop} {ok : σ → α → Prop}
    (keep : ∀ s a t, I s → ok s a → step s a = some t → I t) (imp : ∀ s, I s → P s)
    (need : ∀ s a t, I s → step s a = some t → P t → ok s a) {s : σ} {as : List α} (hI : I s) :
    Visits step P s as ↔ Along step ok s as := by
  have hevery : Every step (fun _ _ t => P t) s as ↔ Along step ok s as :=
    every_iff_along keep (fun s a t hI hok ht => imp t (keep s a t hI hok ht)) need hI
  exact ⟨fun h => hevery.mp h.2, fun h => ⟨imp s hI, hevery.mpr h⟩⟩

/-! ## Two runs side by side -/

/-- An action of each run, and how they are related. -/
structure Pair (r : α → α → Prop) where
  left : α
  right : α
  related : r left right

/-- Both runs take their action, or neither does. -/
def pairStep (step : σ → α → Option σ) {r : α → α → Prop} (s : σ × σ) (a : Pair r) : Option (σ × σ) :=
  match step s.1 a.left, step s.2 a.right with
  | some t, some t' => some (t, t')
  | _, _ => none

theorem pairStep_eq_some {r : α → α → Prop} {s t : σ × σ} {a : Pair r} :
    pairStep step s a = some t ↔ step s.1 a.left = some t.1 ∧ step s.2 a.right = some t.2 := by
  unfold pairStep
  split
  · next u u' hu hu' =>
    rw [hu, hu']
    constructor
    · rintro h
      cases h
      exact ⟨rfl, rfl⟩
    · rintro ⟨h, h'⟩
      cases h
      cases h'
      rfl
  · next hno =>
    refine ⟨fun h => (by cases h), fun ⟨h, h'⟩ => absurd h' (hno _ _ h)⟩

/-! ## Runs to the end -/

/-- The state a run ends in, if all its actions are enabled. -/
def run (step : σ → α → Option σ) : σ → List α → Option σ
  | s, [] => some s
  | s, a :: as => (step s a).bind fun t => run step t as

theorem run_cons {s t : σ} {a : α} {as : List α} :
    run step s (a :: as) = some t ↔ ∃ u, step s a = some u ∧ run step u as = some t := by
  rw [run, Option.bind_eq_some_iff]

theorem run_inv {I : σ → Prop} (keep : ∀ s a t, I s → step s a = some t → I t) {s t : σ} {as : List α} (hI : I s)
    (h : run step s as = some t) : I t := by
  induction as generalizing s with
  | nil =>
    cases h
    exact hI
  | cons a as ih =>
    obtain ⟨u, hu, hrest⟩ := run_cons.mp h
    exact ih (keep s a u hI hu) hrest

/-- Where each step of a kind uses up some of `μ`, and what adds to it adds to
`ν`, the steps of that kind are counted. -/
theorem countP_add_le {p : α → Bool} {μ ν : σ → Nat}
    (dec : ∀ s a t, step s a = some t → (if p a then 1 else 0) + μ t + ν s ≤ μ s + ν t) {s t : σ} {as : List α}
    (h : run step s as = some t) : as.countP p + μ t + ν s ≤ μ s + ν t := by
  induction as generalizing s with
  | nil =>
    cases h
    simp
  | cons a as ih =>
    obtain ⟨u, hu, hrest⟩ := run_cons.mp h
    have hfirst := dec s a u hu
    have hlast := ih hrest
    rw [List.countP_cons]
    omega

/-- A run is no longer than what its steps decrease. -/
theorem length_add_le_of_decreases {μ : σ → Nat} (dec : ∀ s a t, step s a = some t → μ t < μ s) {s t : σ}
    {as : List α}
    (h : run step s as = some t) : as.length + μ t ≤ μ s := by
  have hcount := countP_add_le (p := fun _ => true) (μ := μ) (ν := fun _ => 0) (fun s a t hstep => by
    have hlt := dec s a t hstep
    simp only [if_true]
    omega) h
  simpa using hcount

/-- A run goes through the state it ends in. -/
theorem Visits.last {P : σ → Prop} {s t : σ} {as : List α} (h : Visits step P s as) (hrun : run step s as = some t) :
    P t := by
  induction as generalizing s with
  | nil =>
    cases hrun
    exact h.1
  | cons a as ih =>
    obtain ⟨u, hu, hrest⟩ := run_cons.mp hrun
    obtain ⟨hfirst, hlater⟩ := every_cons.mp h.2 u hu
    exact ih ⟨hfirst, hlater⟩ hrest

end Transition
