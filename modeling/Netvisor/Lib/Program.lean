/-
Programs over a state that can fail, and their weakest preconditions.

A program is an `EStateM`: a failure leaves the state as the writes so far made
it, the way a sequence of statements against a database does when no
transaction is around them. So a postcondition has two parts, one for what the
program returns and one for the state it fails in.
-/
import Mathlib.Order.Defs.Unbundled

namespace Program

universe u

variable {ε σ α β : Type u}

/-- From `s` the program returns with `Q` or fails with `E`. -/
def wp (p : EStateM ε σ α) (Q : α → σ → Prop) (E : ε → σ → Prop) (s : σ) : Prop :=
  match p s with
  | .ok a t => Q a t
  | .error e t => E e t

/-- The state the program ends in, whether it returns or fails. -/
def after (p : EStateM ε σ α) (s : σ) : σ :=
  match p s with
  | .ok _ t => t
  | .error _ t => t

/-- Run `p` and go on with its outcome, whatever it is. -/
def attempt (p : EStateM ε σ α) : EStateM ε σ (Except ε α) := fun s =>
  match p s with
  | .ok a t => .ok (.ok a) t
  | .error e t => .ok (.error e) t

/-- Run `p`, with its error put in context. -/
def mapError (f : ε → ε) (p : EStateM ε σ α) : EStateM ε σ α := fun s =>
  match p s with
  | .ok a t => .ok a t
  | .error e t => .error (f e) t

variable {p : EStateM ε σ α} {Q Q' : α → σ → Prop} {E E' : ε → σ → Prop} {s t : σ}

theorem wp_after {P : σ → Prop} : wp p (fun _ => P) (fun _ => P) s ↔ P (after p s) := by
  unfold wp after
  split <;> exact Iff.rfl

/-- Two programs that start alike and go on alike. -/
theorem bind_congr_at {q : EStateM ε σ α} {f g : α → EStateM ε σ β} (h : p s = q s)
    (hf : ∀ a t, q s = .ok a t → f a t = g a t) : (p >>= f) s = (q >>= g) s := by
  simp only [bind, EStateM.bind, h]
  cases hq : q s with
  | ok a t => exact hf a t hq
  | error e t => rfl

theorem mapError_bind {f : ε → ε} (p : EStateM ε σ α) (g : α → EStateM ε σ β) :
    mapError f (p >>= g) = mapError f p >>= fun a => mapError f (g a) := by
  funext s
  simp only [mapError, bind, EStateM.bind]
  cases p s <;> rfl

theorem wp_of_ok {a : α} (h : p s = .ok a t) : wp p Q E s ↔ Q a t := by rw [wp, h]

/-- A program that does not fail returns. -/
theorem returns_of_wp (h : wp p Q (fun _ _ => False) s) : ∃ a t, p s = .ok a t ∧ Q a t := by
  unfold wp at h
  split at h
  · next a t hrun => exact ⟨a, t, hrun, h⟩
  · exact h.elim

theorem wp_of_error {e : ε} (h : p s = .error e t) : wp p Q E s ↔ E e t := by rw [wp, h]

/-! ## Rules -/

theorem wp.mono {R : α → σ → Prop} {F : ε → σ → Prop} (h : wp p Q E s) (hQ : ∀ a t, Q a t → R a t)
    (hE : ∀ e t, E e t → F e t) : wp p R F s := by
  unfold wp at h ⊢
  split at h
  · exact hQ _ _ h
  · exact hE _ _ h

theorem wp.of_forall (hQ : ∀ a t, Q a t) (hE : ∀ e t, E e t) : wp p Q E s := by
  unfold wp
  split
  · exact hQ _ _
  · exact hE _ _

theorem wp.and (h : wp p Q E s) (h' : wp p Q' E' s) :
    wp p (fun a t => Q a t ∧ Q' a t) (fun e t => E e t ∧ E' e t) s := by
  unfold wp at h h' ⊢
  split <;> simp_all

/-- A postcondition that comes down to one condition wherever the program ends. -/
theorem wp_iff {C : Prop} : wp p (fun a t => Q a t ↔ C) (fun e t => E e t ↔ C) s ↔ (wp p Q E s ↔ C) := by
  unfold wp
  split <;> exact Iff.rfl

theorem wp.iff {C : Prop} (h : wp p (fun a t => Q a t ↔ C) (fun e t => E e t ↔ C) s) : wp p Q E s ↔ C := wp_iff.mp h

instance [∀ a t, Decidable (Q a t)] [∀ e t, Decidable (E e t)] : Decidable (wp p Q E s) := by
  unfold wp
  split <;> infer_instance

@[simp] theorem wp_pure {a : α} : wp (pure a) Q E s ↔ Q a s := Iff.rfl

@[simp] theorem wp_throw {e : ε} : wp (throw e : EStateM ε σ α) Q E s ↔ E e s := Iff.rfl

@[simp] theorem wp_bind {f : α → EStateM ε σ β} {R : β → σ → Prop} :
    wp (p >>= f) R E s ↔ wp p (fun a t => wp (f a) R E t) E s := by
  simp only [wp, bind, EStateM.bind]
  cases p s <;> exact Iff.rfl

@[simp] theorem wp_map {f : α → β} {R : β → σ → Prop} :
    wp (f <$> p) R E s ↔ wp p (fun a t => R (f a) t) E s := by
  simp only [wp, Functor.map, EStateM.map]
  cases p s <;> exact Iff.rfl

theorem run_get : (get : EStateM ε σ σ) s = .ok s s := rfl

@[simp] theorem wp_get {R : σ → σ → Prop} : wp (get : EStateM ε σ σ) R E s ↔ R s s := Iff.rfl

@[simp] theorem wp_set {R : PUnit → σ → Prop} : wp (set t : EStateM ε σ PUnit) R E s ↔ R ⟨⟩ t := Iff.rfl

@[simp] theorem wp_modify {f : σ → σ} {R : PUnit → σ → Prop} :
    wp (modify f : EStateM ε σ PUnit) R E s ↔ R ⟨⟩ (f s) := Iff.rfl

@[simp] theorem wp_attempt {R : Except ε α → σ → Prop} :
    wp (attempt p) R E s ↔ wp p (fun a => R (.ok a)) (fun e => R (.error e)) s := by
  simp only [wp, attempt]
  cases p s <;> exact Iff.rfl

@[simp] theorem wp_mapError {f : ε → ε} : wp (mapError f p) Q E s ↔ wp p Q (fun e => E (f e)) s := by
  simp only [wp, mapError]
  cases p s <;> exact Iff.rfl

@[simp] theorem wp_ite {c : Prop} [Decidable c] {q : EStateM ε σ α} :
    wp (if c then p else q) Q E s ↔ (c → wp p Q E s) ∧ (¬ c → wp q Q E s) := by
  split <;> simp_all

/-! ## Relations -/

/-- Wherever the program ends, the state is related to the one it started in. -/
def Keeps (R : σ → σ → Prop) (p : EStateM ε σ α) : Prop := ∀ s, wp p (fun _ => R s) (fun _ => R s) s

namespace Keeps

variable {R : σ → σ → Prop} [IsPreorder σ R]

theorem pure {a : α} : Keeps R (pure a : EStateM ε σ α) := fun s => Std.Refl.refl s

theorem throw {e : ε} : Keeps R (throw e : EStateM ε σ α) := fun s => Std.Refl.refl s

theorem get : Keeps R (get : EStateM ε σ σ) := fun s => Std.Refl.refl s

/-- A program run later keeps what held until then. -/
theorem later (h : Keeps R p) (hs : R s t) : wp p (fun _ => R s) (fun _ => R s) t :=
  (h t).mono (fun _ u hu => IsTrans.trans s t u hs hu) fun _ u hu => IsTrans.trans s t u hs hu

theorem bind {f : α → EStateM ε σ β} (hp : Keeps R p) (hf : ∀ a, Keeps R (f a)) : Keeps R (p >>= f) := by
  intro s
  rw [wp_bind]
  exact (hp s).mono (fun a _ ht => (hf a).later ht) fun _ _ h => h

omit [IsPreorder σ R] in
theorem ite {c : Prop} [Decidable c] {q : EStateM ε σ α} (hp : Keeps R p) (hq : Keeps R q) :
    Keeps R (if c then p else q) := by
  split
  · exact hp
  · exact hq

omit [IsPreorder σ R] in
theorem mapError {f : ε → ε} (hp : Keeps R p) : Keeps R (mapError f p) := fun s => wp_mapError.mpr (hp s)

theorem forM {f : α → EStateM ε σ PUnit} (hf : ∀ a, Keeps R (f a)) (l : List α) : Keeps R (l.forM f) := by
  induction l with
  | nil => exact pure
  | cons a l ih => exact bind (hf a) fun _ => ih

theorem mapM {f : α → EStateM ε σ β} (hf : ∀ a, Keeps R (f a)) (l : List α) : Keeps R (l.mapM f) := by
  induction l with
  | nil => exact pure
  | cons a l ih =>
    rw [List.mapM_cons]
    exact bind (hf a) fun _ => bind ih fun _ => pure

theorem foldlM {f : β → α → EStateM ε σ β} (hf : ∀ b a, Keeps R (f b a)) (l : List α) (b : β) :
    Keeps R (l.foldlM f b) := by
  induction l generalizing b with
  | nil => exact pure
  | cons a l ih =>
    rw [List.foldlM_cons]
    exact bind (hf b a) ih

end Keeps

/-! ## Loops -/

/-- A loop over a list keeps what each of its rounds keeps: `I` of the elements
done and still to do, the results so far, and the state. -/
theorem wp_mapM {f : α → EStateM ε σ β} {I : List α → List β → List α → σ → Prop}
    (step : ∀ done out a rest s, I done out (a :: rest) s →
      wp (f a) (fun b t => I (done ++ [a]) (out ++ [b]) rest t) E s) :
    ∀ {l done out s}, I done out l s →
      wp (l.mapM f) (fun bs t => I (done ++ l) (out ++ bs) [] t) E s
  | [], done, out, s, h => by simpa using h
  | a :: l, done, out, s, h => by
    rw [List.mapM_cons, wp_bind]
    refine (step done out a l s h).mono (fun b t hb => ?_) fun _ _ he => he
    rw [wp_bind]
    refine (wp_mapM step hb).mono (fun bs t hbs => ?_) fun _ _ he => he
    simpa using hbs

theorem wp_mapM_all {f : α → EStateM ε σ β} {I : List α → List β → List α → σ → Prop}
    (step : ∀ done out a rest s, I done out (a :: rest) s →
      wp (f a) (fun b t => I (done ++ [a]) (out ++ [b]) rest t) E s) {l : List α} (h : I [] [] l s) :
    wp (l.mapM f) (fun bs t => I l bs [] t) E s :=
  wp_mapM step h

/-- The same for a loop with an accumulator. -/
theorem wp_foldlM {f : β → α → EStateM ε σ β} {I : List α → β → List α → σ → Prop}
    (step : ∀ done b a rest s, I done b (a :: rest) s →
      wp (f b a) (fun b t => I (done ++ [a]) b rest t) E s) :
    ∀ {l done b s}, I done b l s → wp (l.foldlM f b) (fun b t => I (done ++ l) b [] t) E s
  | [], done, b, s, h => by simpa using h
  | a :: l, done, b, s, h => by
    rw [List.foldlM_cons, wp_bind]
    refine (step done b a l s h).mono (fun b t hb => ?_) fun _ _ he => he
    refine (wp_foldlM step hb).mono (fun b t hbs => ?_) fun _ _ he => he
    simpa using hbs

theorem wp_foldlM_all {f : β → α → EStateM ε σ β} {I : List α → β → List α → σ → Prop}
    (step : ∀ done b a rest s, I done b (a :: rest) s →
      wp (f b a) (fun b t => I (done ++ [a]) b rest t) E s) {l : List α} {b : β} (h : I [] b l s) :
    wp (l.foldlM f b) (fun b t => I l b [] t) E s :=
  wp_foldlM step h

end Program
