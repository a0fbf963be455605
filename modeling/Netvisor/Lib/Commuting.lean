/-
Programs that do not notice a change of the state.

`Commutes I φ p` says that, from states with `I`, it is the same to change the
state by `φ` before `p` runs or after, and that `p` keeps `I`. The rules follow
the shape of a program, so that it is enough to look at the statements that
read or write what `φ` changes.
-/
import Netvisor.Lib.Program

namespace Program

universe u

variable {ε σ α β : Type u} {I : σ → Prop} {φ : σ → σ} {p q : EStateM ε σ α} {s : σ}

/-- The outcome with its state changed. -/
def changed (φ : σ → σ) : EStateM.Result ε σ α → EStateM.Result ε σ α
  | .ok a t => .ok a (φ t)
  | .error e t => .error e (φ t)

def Commutes (I : σ → Prop) (φ : σ → σ) (p : EStateM ε σ α) : Prop :=
  ∀ s, I s → p (φ s) = changed φ (p s) ∧ I (after p s)

theorem Commutes.after (h : Commutes I φ p) (hs : I s) : after p (φ s) = φ (after p s) := by
  unfold Program.after
  rw [(h s hs).1]
  cases p s <;> rfl

/-- `I` and the change, where `p` returns. -/
theorem Commutes.of_ok (h : Commutes I φ p) (hs : I s) {a : α} {t : σ} (hp : p s = .ok a t) :
    p (φ s) = .ok a (φ t) ∧ I t := by
  obtain ⟨h1, h2⟩ := h s hs
  rw [hp] at h1
  rw [Program.after, hp] at h2
  exact ⟨h1, h2⟩

theorem Commutes.of_error (h : Commutes I φ p) (hs : I s) {e : ε} {t : σ} (hp : p s = .error e t) :
    p (φ s) = .error e (φ t) ∧ I t := by
  obtain ⟨h1, h2⟩ := h s hs
  rw [hp] at h1
  rw [Program.after, hp] at h2
  exact ⟨h1, h2⟩

theorem commutes_pure (a : α) : Commutes I φ (pure a : EStateM ε σ α) := fun _ hs => ⟨rfl, hs⟩

theorem commutes_throw (e : ε) : Commutes I φ (throw e : EStateM ε σ α) := fun _ hs => ⟨rfl, hs⟩

theorem Commutes.bind {f : α → EStateM ε σ β} (h : Commutes I φ p) (hf : ∀ a, Commutes I φ (f a)) :
    Commutes I φ (p >>= f) := by
  intro s hs
  cases hp : p s with
  | ok a t =>
    obtain ⟨h1, ht⟩ := h.of_ok hs hp
    have hrun : (p >>= f) s = f a t := by simp only [Bind.bind, EStateM.bind, hp]
    have hrun' : (p >>= f) (φ s) = f a (φ t) := by simp only [Bind.bind, EStateM.bind, h1]
    unfold Program.after
    rw [hrun, hrun']
    exact hf a t ht
  | error e t =>
    obtain ⟨h1, ht⟩ := h.of_error hs hp
    have hrun : (p >>= f) s = .error e t := by simp only [Bind.bind, EStateM.bind, hp]
    have hrun' : (p >>= f) (φ s) = .error e (φ t) := by simp only [Bind.bind, EStateM.bind, h1]
    unfold Program.after
    rw [hrun, hrun']
    exact ⟨rfl, ht⟩

/-- What is read of the state and used is the same before and after the change. -/
theorem commutes_get {f : σ → EStateM ε σ α} (hread : ∀ s, I s → f (φ s) = f s) (hf : ∀ s, Commutes I φ (f s)) :
    Commutes I φ (get >>= f) := by
  intro s hs
  have hrun : (get >>= f) (φ s) = f s (φ s) := by
    rw [← hread s hs]
    rfl
  rw [hrun]
  exact hf s s hs

theorem Commutes.map {f : α → β} (h : Commutes I φ p) : Commutes I φ (f <$> p) := by
  rw [← bind_pure_comp]
  exact h.bind fun a => commutes_pure (f a)

theorem Commutes.attempt (h : Commutes I φ p) : Commutes I φ (attempt p) := by
  intro s hs
  cases hp : p s with
  | ok a t =>
    obtain ⟨h1, ht⟩ := h.of_ok hs hp
    simp only [Program.attempt, Program.after, hp, h1]
    exact ⟨rfl, ht⟩
  | error e t =>
    obtain ⟨h1, ht⟩ := h.of_error hs hp
    simp only [Program.attempt, Program.after, hp, h1]
    exact ⟨rfl, ht⟩

theorem Commutes.ite {c : Prop} [Decidable c] (h : c → Commutes I φ p) (h' : ¬ c → Commutes I φ q) :
    Commutes I φ (if c then p else q) := by
  split
  · next hc => exact h hc
  · next hc => exact h' hc

theorem Commutes.mapM {f : α → EStateM ε σ β} :
    ∀ {l : List α}, (∀ a ∈ l, Commutes I φ (f a)) → Commutes I φ (l.mapM f)
  | [], _ => by
    rw [List.mapM_nil]
    exact commutes_pure _
  | a :: l, h => by
    rw [List.mapM_cons]
    refine (h a List.mem_cons_self).bind fun b => Commutes.bind (Commutes.mapM fun a ha => ?_) fun bs =>
      commutes_pure _
    exact h a (List.mem_cons_of_mem _ ha)

theorem Commutes.foldlM {f : β → α → EStateM ε σ β} :
    ∀ {l : List α} {b : β}, (∀ b, ∀ a ∈ l, Commutes I φ (f b a)) → Commutes I φ (l.foldlM f b)
  | [], b, _ => by
    rw [List.foldlM_nil]
    exact commutes_pure b
  | a :: l, b, h => by
    rw [List.foldlM_cons]
    exact (h b a List.mem_cons_self).bind fun b => Commutes.foldlM fun b a ha => h b a (List.mem_cons_of_mem _ ha)

end Program
