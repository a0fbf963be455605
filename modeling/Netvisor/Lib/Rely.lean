/-
What a process does while others are under way, as long as they do no more than
it relies on.

The postconditions are asked where the process ends; what comes after it in the
same process relies on no more than that. In a pool, what one process does to
the state has to be something the others rely on.
-/
import Netvisor.Lib.Pool

namespace Process

open Program (wp)

variable {ι ε σ α β : Type} {rely : σ → σ → Prop} {R : ι → σ → σ → Prop} {p : Process ι ε σ α}
  {f : α → Process ι ε σ β} {Q : α → σ → Prop} {E : ε → σ → Prop} {s : σ}

/-- From `s` on, every statement does to the state what its label allows, and the process ends in `Q` or fails in `E`. -/
def Secures (rely : σ → σ → Prop) (R : ι → σ → σ → Prop) (Q : α → σ → Prop) (E : ε → σ → Prop) :
    Process ι ε σ α → σ → Prop
  | ret a, s => Q a s
  | fail e, s => E e s
  | stmt label after next, s => ∀ t, rely s t → R label t (after t) ∧ Secures rely R Q E (next t) (after t)

@[simp] theorem secures_pure {a : α} : Secures rely R Q E (pure a) s ↔ Q a s := Iff.rfl

@[simp] theorem secures_fail {e : ε} : Secures rely R Q E (fail e) s ↔ E e s := Iff.rfl

theorem secures_bind {Q : β → σ → Prop} :
    Secures rely R Q E (p >>= f) s ↔ Secures rely R (fun a t => Secures rely R Q E (f a) t) E p s := by
  induction p generalizing s with
  | ret a => exact Iff.rfl
  | fail e => exact Iff.rfl
  | stmt label after next ih => exact forall₂_congr fun t _ => and_congr Iff.rfl (ih t)

theorem secures_query {label : ι} {g : σ → α} :
    Secures rely R Q E (query label g) s ↔ ∀ t, rely s t → R label t t ∧ Q (g t) t := Iff.rfl

theorem secures_statement {label : ι} {q : EStateM ε σ α} :
    Secures rely R Q E (statement label q) s ↔ ∀ t, rely s t → R label t (Program.after q t) ∧ wp q Q E t := by
  refine forall₂_congr fun t _ => and_congr Iff.rfl ?_
  simp only [Program.after, wp]
  cases q t <;> exact Iff.rfl

theorem secures_attempt {Q : Except ε α → σ → Prop} :
    Secures rely R Q E p.attempt s ↔ Secures rely R (fun a t => Q (.ok a) t) (fun e t => Q (.error e) t) p s := by
  induction p generalizing s with
  | ret a => exact Iff.rfl
  | fail e => exact Iff.rfl
  | stmt label after next ih => exact forall₂_congr fun t _ => and_congr Iff.rfl (ih t)

theorem Secures.mono {Q' : α → σ → Prop} {E' : ε → σ → Prop} (h : Secures rely R Q E p s) (hQ : ∀ a t, Q a t → Q' a t)
    (hE : ∀ e t, E e t → E' e t) : Secures rely R Q' E' p s := by
  induction p generalizing s with
  | ret a => exact hQ a s h
  | fail e => exact hE e s h
  | stmt label after next ih => exact fun t ht => ⟨(h t ht).1, ih t (h t ht).2⟩

/-- Where a process ends, no more has been done than what others rely on. -/
theorem Secures.relied (hrefl : ∀ s, rely s s) (htrans : ∀ {s t u}, rely s t → rely t u → rely s u)
    (hstmt : ∀ {label s t}, R label s t → rely s t) (h : Secures rely R Q E p s) :
    Secures rely R (fun a t => rely s t ∧ Q a t) (fun e t => rely s t ∧ E e t) p s := by
  induction p generalizing s with
  | ret a => exact ⟨hrefl s, h⟩
  | fail e => exact ⟨hrefl s, h⟩
  | stmt label after next ih =>
    intro t ht
    obtain ⟨hR, hnext⟩ := h t ht
    have hst : rely s (after t) := htrans ht (hstmt hR)
    exact ⟨hR, (ih t hnext).mono (fun _ _ h => ⟨htrans hst h.1, h.2⟩) fun _ _ h => ⟨htrans hst h.1, h.2⟩⟩

/-- Whoever else is there, the statements are those of the process. -/
theorem Secures.and_does {S : ι → σ → σ → Prop} (h : Secures rely R Q E p s) (hdoes : Does S p) :
    Secures rely (fun label s t => R label s t ∧ S label s t) Q E p s := by
  induction p generalizing s with
  | ret a => exact h
  | fail e => exact h
  | stmt label after next ih =>
    intro t ht
    obtain ⟨hR, hnext⟩ := h t ht
    exact ⟨⟨hR, (hdoes t).1⟩, ih t hnext (hdoes t).2⟩

/-- A process alone keeps what its statements keep. -/
theorem Secures.wp_run {I : σ → Prop} (h : Secures rely R Q E p s) (hrefl : ∀ s, rely s s)
    (hstep : ∀ label s t, I s → R label s t → I t) (hI : I s) :
    wp p.run (fun a t => I t ∧ Q a t) (fun e t => I t ∧ E e t) s := by
  induction p generalizing s with
  | ret a => exact ⟨hI, h⟩
  | fail e => exact ⟨hI, h⟩
  | stmt label after next ih =>
    obtain ⟨hR, hnext⟩ := h s (hrefl s)
    exact ih s hnext (hstep label s _ hI hR)

/-- What each round keeps holds after all of them. -/
theorem secures_forM {I : σ → Prop} {g : β → Process ι ε σ Unit} {l : List β}
    (h : ∀ b ∈ l, ∀ t, I t → Secures rely R (fun _ => I) E (g b) t) (hI : I s) :
    Secures rely R (fun _ => I) E (l.forM g) s := by
  induction l generalizing s with
  | nil => exact hI
  | cons b l ih =>
    rw [List.forM, secures_bind]
    refine (h b List.mem_cons_self s hI).mono (fun _ t ht => ?_) fun _ _ ht => ht
    exact ih (fun c hc => h c (List.mem_cons_of_mem b hc)) ht

end Process

namespace Pool

open Process (Secures)
open Transition (Visits Along)

variable {ι ε σ ρ η : Type} {start : Nat → ρ → Process ι ε σ Unit} {other : η → σ → σ} {rely : σ → σ → Prop}
  {R : ι → σ → σ → Prop} {I P : σ → Prop} {ok : ι → σ → Prop} {okOther : η → σ → Prop}

/-- What the processes rely on, and that they do no more themselves. -/
structure Relies (start : Nat → ρ → Process ι ε σ Unit) (other : η → σ → σ) (rely : σ → σ → Prop)
    (R : ι → σ → σ → Prop) (I : σ → Prop) : Prop where
  refl : ∀ s, rely s s
  trans : ∀ {s t u}, rely s t → rely t u → rely s u
  stmt : ∀ {label s t}, R label s t → rely s t
  other : ∀ e s, rely s (other e s)
  stable : ∀ {s t}, I s → rely s t → I t
  /-- A process that is started where `I` holds does what its labels allow. -/
  start : ∀ n r {s}, I s → Secures rely R (fun _ _ => True) (fun _ _ => True) (start n r) s

/-- What statements that do what their labels allow keep under the conditions of the labels holds in every state of a run
that meets the conditions. -/
theorem Relies.visits (h : Relies start other rely R I)
    (hstep : ∀ label s t, I s → P s → R label s t → ok label s → P t)
    (hother : ∀ e s, I s → P s → okOther e s → P (other e s)) {s : σ} (hI : I s) (hP : P s) {as : List (Action ρ η)}
    (hok : Along (step start other) (Meets ok okOther) { state := s } as) :
    Visits (step start other) (fun p : Pool ι ε σ => P p.state) { state := s } as := by
  let T (s : σ) (q : Option (Process ι ε σ Unit)) : Prop :=
    ∀ p ∈ q, ∃ s₀, rely s₀ s ∧ Secures rely R (fun _ _ => True) (fun _ _ => True) p s₀
  have hstable {s t : σ} {q : Option (Process ι ε σ Unit)} (hT : T s q) (hst : rely s t) : T t q := by
    intro p hp
    obtain ⟨s₀, hrely, hsecures⟩ := hT p hp
    exact ⟨s₀, h.trans hrely hst, hsecures⟩
  have hissue {s : σ} {label : ι} {after : σ → σ} {next : σ → Process ι ε σ Unit}
      (hT : T s (some (.stmt label after next))) :
      R label s (after s) ∧ Secures rely R (fun _ _ => True) (fun _ _ => True) (next s) (after s) := by
    obtain ⟨s₀, hrely, hsecures⟩ := hT _ rfl
    exact hsecures s hrely
  refine Keeps.visits (P := fun s => I s ∧ P s) (T := fun _ s q => I s ∧ T s q) ⟨?_, ?_, ?_, ?_⟩ (fun _ h => h.2)
    ⟨hI, hP⟩ (fun n => ⟨hI, fun _ hp => by cases hp⟩) hok
  · intro s n r ⟨hI, _⟩
    refine ⟨hI, fun p hp => ?_⟩
    cases hp
    exact ⟨s, h.refl s, h.start n r hI⟩
  · intro s n label after next ⟨hI, hP⟩ ⟨_, hT⟩ hok
    obtain ⟨hR, hnext⟩ := hissue hT
    have hI' := h.stable hI (h.stmt hR)
    refine ⟨⟨hI', hstep label s _ hI hP hR hok⟩, hI', fun p hp => ?_⟩
    cases hp
    exact ⟨after s, h.refl _, hnext⟩
  · intro s n m label after next q _ ⟨_, hT⟩ _ ⟨hI, hTm⟩
    have hrely := h.stmt (hissue hT).1
    exact ⟨h.stable hI hrely, hstable hTm hrely⟩
  · intro s e ⟨hI, hP⟩ hok
    have hI' := h.stable hI (h.other e s)
    exact ⟨⟨hI', hother e s hI hP hok⟩, fun n q ⟨_, hT⟩ => ⟨hI', hstable hT (h.other e s)⟩⟩

/-- What every statement keeps holds in every state of every run. -/
theorem Relies.visits_of_keeps (h : Relies start other rely R I)
    (hstep : ∀ label s t, I s → P s → R label s t → P t) (hother : ∀ e s, I s → P s → P (other e s)) {s : σ}
    (hI : I s) (hP : P s) (as : List (Action ρ η)) :
    Visits (step start other) (fun p : Pool ι ε σ => P p.state) { state := s } as := by
  have hok : Along (step start other) (Meets (fun (_ : ι) (_ : σ) => True) fun (_ : η) (_ : σ) => True)
      { state := s } as := by
    refine (Transition.along_true _ as).mono fun p a _ _ _ => ?_
    cases a with
    | request r => trivial
    | issue i => exact fun _ _ _ _ => trivial
    | other e => trivial
  exact h.visits (fun label s t hI hP hR _ => hstep label s t hI hP hR) (fun e s hI hP _ => hother e s hI hP) hI hP hok

/-! ## Where processes change what others rely on -/

/-- The process has issued a statement, and has another one to issue. -/
def Begun (start : Nat → ρ → Process ι ε σ Unit) (s : Pool ι ε σ) (j : Nat) : Prop :=
  ∃ p, s.tasks[j]? = some p ∧ p.phase.isSome ∧ ∀ r, p ≠ start j r

/-- What is done is something that the others rely on which have begun. -/
def Spares (start : Nat → ρ → Process ι ε σ Unit) (other : η → σ → σ) (rely : σ → σ → Prop) (s : Pool ι ε σ) :
    Action ρ η → Prop
  | .request _ => True
  | .issue i => ∀ label after next, s.tasks[i]? = some (.stmt label after next) →
      ∀ j ≠ i, s.Begun start j → rely s.state (after s.state)
  | .other e => ∀ j, s.Begun start j → rely s.state (other e s.state)

/-- From where the process is, its statements do what their labels allow. -/
def Secured (rely : σ → σ → Prop) (R : ι → σ → σ → Prop) (s : σ) (p : Process ι ε σ Unit) : Prop :=
  ∃ s₀, rely s₀ s ∧ Secures rely R (fun _ _ => True) (fun _ _ => True) p s₀

/-- A process that has not begun relies on nothing, nor does one that is over. -/
theorem Secured.step (hrefl : ∀ s, rely s s) (htrans : ∀ {s t u}, rely s t → rely t u → rely s u)
    (hstart : ∀ n r {s}, I s → Secures rely R (fun _ _ => True) (fun _ _ => True) (start n r) s) {s : Pool ι ε σ}
    {t : σ} (hI : I t) {j : Nat} {p : Process ι ε σ Unit} (hp : s.tasks[j]? = some p)
    (hspared : s.Begun start j → rely s.state t) (h : Secured rely R s.state p) : Secured rely R t p := by
  by_cases hbegun : s.Begun start j
  · obtain ⟨s₀, hs₀, hsecures⟩ := h
    exact ⟨s₀, htrans hs₀ (hspared hbegun), hsecures⟩
  · refine ⟨t, hrefl t, ?_⟩
    cases p with
    | ret a => trivial
    | fail e => trivial
    | stmt label after next =>
      by_contra hnot
      exact hbegun ⟨_, hp, rfl, fun r hr => hnot (hr ▸ hstart j r hI)⟩

/-- Where what is done spares the processes that have begun, each of their statements does what its label allows. -/
theorem along_meets_of_spares (hrefl : ∀ s, rely s s) (htrans : ∀ {s t u}, rely s t → rely t u → rely s u)
    (hstart : ∀ n r {s}, I s → Secures rely R (fun _ _ => True) (fun _ _ => True) (start n r) s)
    (hstep : ∀ label s t, I s → R label s t → I t) (hother : ∀ e s, I s → I (other e s))
    (hok : ∀ label s t, R label s t → ok label s) (hokOther : ∀ e s, okOther e s) {s : σ} (hI : I s)
    {as : List (Action ρ η)} (h : Along (step start other) (Spares start other rely) { state := s } as) :
    Along (step start other) (Meets ok okOther) { state := s } as := by
  let J (p : Pool ι ε σ) : Prop := I p.state ∧ ∀ (j : Nat) q, p.tasks[j]? = some q → Secured rely R p.state q
  have hJ : J { state := s } := ⟨hI, fun j q hq => by simp at hq⟩
  refine Along.every (I := J) (R := fun p a _ => Meets ok okOther p a) ?_ ?_ hJ h
  · rintro p a q ⟨hI, htasks⟩ hspares hstep'
    cases a with
    | request r =>
      cases hstep'
      refine ⟨hI, fun j q hq => ?_⟩
      rcases List.mem_append.mp (List.mem_of_getElem? hq) with hq | hq
      · obtain ⟨k, hk⟩ := List.getElem?_of_mem hq
        exact htasks k q hk
      · rw [List.mem_singleton.mp hq]
        exact ⟨p.state, hrefl _, hstart _ r hI⟩
    | issue i =>
      simp only [step] at hstep'
      split at hstep'
      · next label after next hget =>
        cases hstep'
        obtain ⟨s₀, hs₀, hsecures⟩ := htasks i _ hget
        obtain ⟨hR, hnext⟩ := hsecures p.state hs₀
        have hafter := hstep label _ _ hI hR
        refine ⟨hafter, fun j q hq => ?_⟩
        by_cases hj : i = j
        · subst hj
          rw [List.getElem?_set_self (List.getElem?_eq_some_iff.mp hget).1] at hq
          cases hq
          exact ⟨_, hrefl _, hnext⟩
        · rw [List.getElem?_set_ne hj] at hq
          exact (htasks j q hq).step hrefl htrans hstart hafter hq (hspares label after next hget j (Ne.symm hj))
      · cases hstep'
    | other e =>
      cases hstep'
      exact ⟨hother e _ hI, fun j q hq =>
        (htasks j q hq).step (s := p) hrefl htrans hstart (hother e _ hI) hq (hspares j)⟩
  · rintro p a q ⟨hI, htasks⟩ hspares -
    cases a with
    | request r => trivial
    | issue i =>
      intro q hq label hlabel
      obtain ⟨s₀, hs₀, hsecures⟩ := htasks i q hq
      cases q with
      | ret a => cases hlabel
      | fail e => cases hlabel
      | stmt label' after next =>
        cases hlabel
        exact hok _ _ _ (hsecures p.state hs₀).1
    | other e => exact hokOther e _

end Pool
