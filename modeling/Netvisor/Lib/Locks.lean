/-
Calls that acquire and release read-write locks, in every interleaving.

A call is the list of the steps that it has still to take, with the guards that
it holds. It is granted a lock when no guard is held that conflicts with it.
-/
import Mathlib.Data.List.Basic
import Mathlib.Logic.Relation
import Netvisor.Lib.Transition

namespace Locks

inductive Mode
  | read
  | write
deriving DecidableEq, Repr

structure Guard (L : Type) where
  lock : L
  mode : Mode
deriving DecidableEq, Repr

inductive Step (L : Type)
  | acquire (g : Guard L)
  | release (l : L)
deriving DecidableEq, Repr

structure Caller (L : Type) where
  held : List (Guard L) := []
  rest : List (Step L)
deriving DecidableEq, Repr

inductive Action (ρ : Type)
  | call (r : ρ)
  /-- The next step of a call. -/
  | run (i : Nat)

variable {L ρ : Type}

/-- A read-write lock is held by one writer or by any number of readers. -/
def Guard.Conflicts (g h : Guard L) : Prop := g.lock = h.lock ∧ (g.mode = .write ∨ h.mode = .write)

/-- No guard conflicts with `g`. -/
def Free (s : List (Caller L)) (g : Guard L) : Prop := ∀ c ∈ s, ∀ h ∈ c.held, ¬ g.Conflicts h

theorem getElem?_step {s : List (Caller L)} {c d : Caller L} {i k : Nat} (h : (s.set i c)[k]? = some d) :
    (k = i ∧ d = c) ∨ (k ≠ i ∧ s[k]? = some d) := by
  by_cases hk : k = i
  · subst hk
    rw [List.getElem?_set] at h
    simp only [if_pos] at h
    split at h
    · cases h
      exact .inl ⟨rfl, rfl⟩
    · cases h
  · rw [List.getElem?_set_ne (Ne.symm hk)] at h
    exact .inr ⟨hk, h⟩

theorem getElem?_call {s : List (Caller L)} {c d : Caller L} {k : Nat} (h : (s ++ [c])[k]? = some d) :
    s[k]? = some d ∨ d = c := by
  by_cases hk : k < s.length
  · rw [List.getElem?_append_left hk] at h
    exact .inl h
  · rw [List.getElem?_append_right (by omega)] at h
    exact .inr (List.mem_singleton.mp (List.mem_of_getElem? h))

section

variable [DecidableEq L]

instance (g h : Guard L) : Decidable (g.Conflicts h) := inferInstanceAs (Decidable (_ ∧ _))

instance (s : List (Caller L)) (g : Guard L) : Decidable (Free s g) :=
  inferInstanceAs (Decidable (∀ c ∈ s, ∀ h ∈ c.held, ¬ g.Conflicts h))

/-- The call once it has taken its next step. -/
def Caller.next (c : Caller L) : Option (Caller L) :=
  match c.rest with
  | [] => none
  | .acquire g :: rest => some { held := g :: c.held, rest := rest }
  | .release l :: rest => some { held := c.held.filter fun g => g.lock ≠ l, rest := rest }

/-- What the call has to be granted for its next step. -/
def Caller.wants (c : Caller L) : Option (Guard L) :=
  match c.rest with
  | .acquire g :: _ => some g
  | _ => none

def step (program : ρ → List (Step L)) (s : List (Caller L)) : Action ρ → Option (List (Caller L))
  | .call r => some (s ++ [{ rest := program r }])
  | .run i =>
    match s[i]?.bind fun c => c.next.map fun c' => (c, c') with
    | none => none
    | some (c, c') => if ∀ g ∈ c.wants, Free s g then some (s.set i c') else none

variable {program : ρ → List (Step L)} {s t : List (Caller L)}

theorem step_cases {a : Action ρ} (h : step program s a = some t) :
    (∃ r, a = .call r ∧ t = s ++ [{ rest := program r }]) ∨
    (∃ i c c', a = .run i ∧ s[i]? = some c ∧ c.next = some c' ∧ (∀ g ∈ c.wants, Free s g) ∧ t = s.set i c') := by
  cases a with
  | call r =>
    cases h
    exact .inl ⟨r, rfl, rfl⟩
  | run i =>
    simp only [step] at h
    split at h
    · cases h
    · next c c' hc =>
      split at h
      · next hfree =>
        cases h
        obtain ⟨x, hx, hnext⟩ := Option.bind_eq_some_iff.mp hc
        obtain ⟨x', hx', heq⟩ := Option.map_eq_some_iff.mp hnext
        cases heq
        exact .inr ⟨i, c, c', rfl, hx, hx', hfree, rfl⟩
      · cases h

/-! ## What holds in every state -/

/-- Two calls hold no guards that conflict. -/
def Exclusive (s : List (Caller L)) : Prop :=
  ∀ (i j : Nat) (c d : Caller L), s[i]? = some c → s[j]? = some d → i ≠ j →
    ∀ g ∈ c.held, ∀ h ∈ d.held, ¬ g.Conflicts h

/-- Each lock that the call acquires meets the rule, with what it then holds. -/
def Follows (rule : List (Guard L) → Guard L → Prop) : List (Guard L) → List (Step L) → Prop
  | _, [] => True
  | held, .acquire g :: rest => rule held g ∧ Follows rule (g :: held) rest
  | held, .release l :: rest => Follows rule (held.filter fun g => g.lock ≠ l) rest

instance Follows.decidable {rule : List (Guard L) → Guard L → Prop} [∀ held g, Decidable (rule held g)] :
    ∀ (held : List (Guard L)) (rest : List (Step L)), Decidable (Follows rule held rest)
  | _, [] => .isTrue trivial
  | held, .acquire g :: rest => @instDecidableAnd _ _ _ (Follows.decidable (g :: held) rest)
  | held, .release l :: rest => Follows.decidable (held.filter fun g => g.lock ≠ l) rest

omit [DecidableEq L] in
theorem Guard.Conflicts.symm {g h : Guard L} (hc : g.Conflicts h) : h.Conflicts g := ⟨hc.1.symm, hc.2.symm⟩

/-- A guard that the step left to the call, or the one that it was granted. -/
theorem Caller.mem_next {c c' : Caller L} (h : c.next = some c') {g : Guard L} (hg : g ∈ c'.held) :
    g ∈ c.held ∨ c.wants = some g := by
  unfold next at h
  split at h
  · cases h
  · next hrest =>
    cases h
    rcases List.mem_cons.mp hg with rfl | hg
    · exact .inr (by rw [wants, hrest])
    · exact .inl hg
  · cases h
    exact .inl (List.mem_filter.mp hg).1

theorem Exclusive.step (hs : Exclusive s) {a : Action ρ} (h : step program s a = some t) : Exclusive t := by
  intro i j c d hc hd hij
  rcases step_cases h with ⟨r, -, rfl⟩ | ⟨k, x, x', -, hx, hnext, hfree, rfl⟩
  · rcases getElem?_call hc with hc | rfl
    · rcases getElem?_call hd with hd | rfl
      · exact hs i j c d hc hd hij
      · exact fun g _ h hh => absurd hh List.not_mem_nil
    · exact fun g hg => absurd hg List.not_mem_nil
  · -- what the call holds after its step conflicts with no other's guard
    have hkeep : ∀ m e, m ≠ k → s[m]? = some e → ∀ g ∈ x'.held, ∀ h ∈ e.held, ¬ g.Conflicts h := by
      intro m e hm he g hg h hh
      rcases Caller.mem_next hnext hg with hg | hg
      · exact hs k m x e hx he (Ne.symm hm) g hg h hh
      · exact hfree g hg e (List.mem_of_getElem? he) h hh
    rcases getElem?_step hc with ⟨rfl, rfl⟩ | ⟨hi, hci⟩
    · rcases getElem?_step hd with ⟨rfl, rfl⟩ | ⟨hj, hdj⟩
      · exact absurd rfl hij
      · exact hkeep j d hj hdj
    · rcases getElem?_step hd with ⟨rfl, rfl⟩ | ⟨hj, hdj⟩
      · exact fun g hg h hh hconf => hkeep i c hi hci h hh g hg hconf.symm
      · exact hs i j c d hci hdj hij

theorem Follows.step {rule : List (Guard L) → Guard L → Prop} (hprogram : ∀ r, Follows rule [] (program r))
    (hs : ∀ c ∈ s, Follows rule c.held c.rest) {a : Action ρ} (h : Locks.step program s a = some t) :
    ∀ c ∈ t, Follows rule c.held c.rest := by
  intro c hc
  rcases step_cases h with ⟨r, -, rfl⟩ | ⟨k, x, x', -, hx, hnext, -, rfl⟩
  · rcases List.mem_append.mp hc with hc | hc
    · exact hs c hc
    · rw [List.mem_singleton.mp hc]
      exact hprogram r
  · rcases List.mem_or_eq_of_mem_set hc with hc | rfl
    · exact hs c hc
    · have hx := hs x (List.mem_of_getElem? hx)
      unfold Caller.next at hnext
      split at hnext
      · cases hnext
      · next hrest =>
        cases hnext
        rw [hrest] at hx
        exact hx.2
      · next hrest =>
        cases hnext
        rw [hrest] at hx
        exact hx

theorem Follows.wants {rule : List (Guard L) → Guard L → Prop} {c : Caller L} (h : Follows rule c.held c.rest)
    {g : Guard L} (hg : c.wants = some g) : rule c.held g := by
  unfold Caller.wants at hg
  split at hg
  · next hrest =>
    cases hg
    rw [hrest] at h
    exact h.1
  · cases hg

/-! ## Wait cycles -/

/-- Call `i` holds a lock that call `j` needs next, in whatever mode: a writer that waits holds up readers too. -/
def Blocks (s : List (Caller L)) (i j : Nat) : Prop :=
  ∃ c d, s[i]? = some c ∧ s[j]? = some d ∧ ∃ g ∈ c.held, ∃ h, d.wants = some h ∧ g.lock = h.lock

/-- Two or more calls each hold a lock that the next one needs. -/
def WaitCycle (s : List (Caller L)) : Prop :=
  ∃ i j, i ≠ j ∧ Relation.TransGen (Blocks s) i j ∧ Relation.TransGen (Blocks s) j i

omit [DecidableEq L] in
/-- The calls of a cycle both wait and are waited for, so a rank that goes up from such a call to the next forbids
cycles. -/
theorem not_waitCycle (rank : Nat → Nat)
    (hrank : ∀ h i j k, Blocks s h i → Blocks s i j → Blocks s j k → rank i < rank j) : ¬ WaitCycle s := by
  have hpath : ∀ i j, Relation.TransGen (Blocks s) i j → (∃ h, Blocks s h i) → (∃ k, Blocks s j k) →
      rank i < rank j := by
    intro i j hij hi
    induction hij with
    | single h =>
      rintro ⟨k, hk⟩
      obtain ⟨h', hh'⟩ := hi
      exact hrank h' _ _ k hh' h hk
    | tail hij hjk ih =>
      rintro ⟨l, hl⟩
      obtain ⟨m, -, hm⟩ := Relation.TransGen.tail'_iff.mp hij
      exact Nat.lt_trans (ih ⟨_, hjk⟩) (hrank m _ _ l hm hjk hl)
  rintro ⟨i, j, -, hij, hji⟩
  obtain ⟨k, hk, -⟩ := Relation.TransGen.head'_iff.mp hij
  obtain ⟨l, hl, -⟩ := Relation.TransGen.head'_iff.mp hji
  obtain ⟨m, -, hm⟩ := Relation.TransGen.tail'_iff.mp hij
  obtain ⟨n, -, hn⟩ := Relation.TransGen.tail'_iff.mp hji
  exact absurd (hpath i j hij ⟨n, hn⟩ ⟨l, hl⟩) (Nat.not_lt_of_gt (hpath j i hji ⟨m, hm⟩ ⟨k, hk⟩))

end

end Locks
