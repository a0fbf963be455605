/-
Processes under way on one state, in every interleaving of their statements.

A pool starts processes, which it numbers, and issues the next statement of any
of them; meanwhile the state may change in other ways. A property that the
statements with one label keep under one condition holds along a run exactly if
every statement issued meets the condition of its label. Where what a process
does later depends on what it has done, `T` says what holds of each process, and
no other process may break it.
-/
import Netvisor.Lib.Process
import Netvisor.Lib.Transition

/-- A state, and the processes that were started on it. -/
structure Pool (ι ε σ : Type) where
  state : σ
  tasks : List (Process ι ε σ Unit) := []

namespace Pool

open Process (Does)
open Transition (Visits Along)

inductive Action (ρ η : Type)
  | request (r : ρ)
  /-- The next statement of a process. -/
  | issue (i : Nat)
  /-- Something else happens. -/
  | other (e : η)

variable {ι ε σ ρ η : Type}

def step (start : Nat → ρ → Process ι ε σ Unit) (other : η → σ → σ) (s : Pool ι ε σ) :
    Action ρ η → Option (Pool ι ε σ)
  | .request r => some { s with tasks := s.tasks ++ [start s.tasks.length r] }
  | .issue i =>
    match s.tasks[i]? with
    | some (.stmt _ after next) => some { state := after s.state, tasks := s.tasks.set i (next s.state) }
    | _ => none
  | .other e => some { s with state := other e s.state }

/-- What is done meets the condition of its label. -/
def Meets (ok : ι → σ → Prop) (okOther : η → σ → Prop) (s : Pool ι ε σ) : Action ρ η → Prop
  | .request _ => True
  | .issue i => ∀ p, s.tasks[i]? = some p → ∀ label, p.phase = some label → ok label s.state
  | .other e => okOther e s.state

theorem meets_issue {ok : ι → σ → Prop} {okOther : η → σ → Prop} {s : Pool ι ε σ} {i : Nat} :
    Meets (ρ := ρ) ok okOther s (.issue i) ↔ ∀ label ∈ s.tasks[i]?.bind Process.phase, ok label s.state := by
  simp only [Meets, Option.mem_def, Option.bind_eq_some_iff]
  constructor
  · rintro h label ⟨p, hp, hlabel⟩
    exact h p hp label hlabel
  · exact fun h p hp label hlabel => h label ⟨p, hp, hlabel⟩

instance {ok : ι → σ → Prop} {okOther : η → σ → Prop} [∀ label s, Decidable (ok label s)]
    [∀ e s, Decidable (okOther e s)] (s : Pool ι ε σ) : ∀ a : Action ρ η, Decidable (Meets ok okOther s a)
  | .request _ => .isTrue trivial
  | .issue i => decidable_of_iff (∀ label ∈ s.tasks[i]?.bind Process.phase, ok label s.state) meets_issue.symm
  | .other e => inferInstanceAs (Decidable (okOther e s.state))

section

variable {start : Nat → ρ → Process ι ε σ Unit} {other : η → σ → σ} {R : ι → σ → σ → Prop} {P : σ → Prop}
  {ok : ι → σ → Prop} {okOther : η → σ → Prop}

theorem step_spec (hstart : ∀ n r, Does R (start n r)) (hstep : ∀ label s t, P s → R label s t → (P t ↔ ok label s))
    (hother : ∀ e s, P s → (P (other e s) ↔ okOther e s)) {s t : Pool ι ε σ} {a : Action ρ η} (hP : P s.state)
    (htasks : ∀ p ∈ s.tasks, Does R p) (h : step start other s a = some t) :
    (P t.state ↔ s.Meets ok okOther a) ∧ ∀ p ∈ t.tasks, Does R p := by
  cases a with
  | request r =>
    cases h
    refine ⟨iff_of_true hP trivial, fun p hp => ?_⟩
    rcases List.mem_append.mp hp with hp | hp
    · exact htasks p hp
    · rw [List.mem_singleton.mp hp]
      exact hstart _ r
  | issue i =>
    simp only [step] at h
    split at h
    · next label after next hget =>
      cases h
      obtain ⟨hdoes, hnext⟩ := htasks _ (List.mem_of_getElem? hget) s.state
      refine ⟨(hstep label _ _ hP hdoes).trans ⟨?_, fun h => h _ hget label rfl⟩, fun p hp => ?_⟩
      · intro hok p hp label' hlabel
        rw [hget] at hp
        cases hp
        cases hlabel
        exact hok
      · rcases List.mem_or_eq_of_mem_set hp with hp | rfl
        · exact htasks p hp
        · exact hnext
    · cases h
  | other e =>
    cases h
    exact ⟨hother e _ hP, htasks⟩

/-- The property holds in every state reached exactly if everything that is done meets the condition for it. -/
theorem visits_iff_along (hstart : ∀ n r, Does R (start n r))
    (hstep : ∀ label s t, P s → R label s t → (P t ↔ ok label s))
    (hother : ∀ e s, P s → (P (other e s) ↔ okOther e s)) {s : σ} (hP : P s) (as : List (Action ρ η)) :
    Visits (step start other) (fun p : Pool ι ε σ => P p.state) { state := s } as ↔
      Along (step start other) (Meets ok okOther) { state := s } as := by
  refine Transition.visits_iff_along (I := fun p : Pool ι ε σ => P p.state ∧ ∀ q ∈ p.tasks, Does R q) ?_
    (fun _ h => h.1) ?_ ⟨hP, fun _ h => (by cases h)⟩
  · intro p a q hI hok hq
    obtain ⟨hiff, htasks⟩ := step_spec hstart hstep hother hI.1 hI.2 hq
    exact ⟨hiff.mpr hok, htasks⟩
  · intro p a q hI hq hQ
    exact (step_spec hstart hstep hother hI.1 hI.2 hq).1.mp hQ

end

/-! ## What holds of each process -/

section

variable {start : Nat → ρ → Process ι ε σ Unit} {other : η → σ → σ} {P Q : σ → Prop}
  {T : Nat → σ → Option (Process ι ε σ Unit) → Prop} {ok : ι → σ → Prop} {okOther : η → σ → Prop}

/-- What a statement of a process, and what else happens, does to the state and to the other processes. -/
structure Keeps (start : Nat → ρ → Process ι ε σ Unit) (other : η → σ → σ) (P : σ → Prop)
    (T : Nat → σ → Option (Process ι ε σ Unit) → Prop) (ok : ι → σ → Prop) (okOther : η → σ → Prop) : Prop where
  start : ∀ {s n} r, T n s none → T n s (some (start n r))
  own : ∀ {s n label after next}, P s → T n s (some (.stmt label after next)) → ok label s →
    P (after s) ∧ T n (after s) (some (next s))
  others : ∀ {s n m label after next} q, P s → T n s (some (.stmt label after next)) → m ≠ n → T m s q →
    T m (after s) q
  other : ∀ {s} e, P s → okOther e s → P (other e s) ∧ ∀ n q, T n s q → T n (other e s) q

/-- What every statement keeps under its condition holds in every state of a run that meets the conditions. -/
theorem Keeps.visits (h : Keeps start other P T ok okOther) (imp : ∀ s, P s → Q s) {s : σ} (hP : P s)
    (hT : ∀ n, T n s none) {as : List (Action ρ η)}
    (hok : Along (step start other) (Meets ok okOther) { state := s } as) :
    Visits (step start other) (fun p : Pool ι ε σ => Q p.state) { state := s } as := by
  refine hok.visits (I := fun p : Pool ι ε σ => P p.state ∧ ∀ n, T n p.state p.tasks[n]?) ?_ (fun p hp => imp _ hp.1)
    ⟨hP, fun n => by simpa using hT n⟩
  intro p a q ⟨hP, hT⟩ hok hq
  cases a with
  | request r =>
    cases hq
    refine ⟨hP, fun n => ?_⟩
    by_cases hn : n = p.tasks.length
    · subst hn
      have hnone := hT p.tasks.length
      rw [List.getElem?_eq_none (Nat.le_refl _)] at hnone
      simpa using h.start r hnone
    · have hsame : (p.tasks ++ [start p.tasks.length r])[n]? = p.tasks[n]? := by
        rcases Nat.lt_or_gt_of_ne hn with hlt | hgt
        · exact List.getElem?_append_left hlt
        · rw [List.getElem?_eq_none (Nat.le_of_lt hgt), List.getElem?_eq_none]
          simpa using Nat.succ_le_of_lt hgt
      simpa only [hsame] using hT n
  | issue i =>
    simp only [step] at hq
    split at hq
    · next label after next hget =>
      cases hq
      have hi := hT i
      rw [hget] at hi
      obtain ⟨hown, hnext⟩ := h.own hP hi (hok _ hget label rfl)
      refine ⟨hown, fun n => ?_⟩
      by_cases hn : n = i
      · subst hn
        have hlt : n < p.tasks.length := (List.getElem?_eq_some_iff.mp hget).1
        simpa [hlt] using hnext
      · rw [List.getElem?_set_ne (Ne.symm hn)]
        exact h.others _ hP hi hn (hT n)
    · cases hq
  | other e =>
    cases hq
    obtain ⟨hkeep, hothers⟩ := h.other e hP hok
    exact ⟨hkeep, fun n => hothers n _ (hT n)⟩

end

end Pool
