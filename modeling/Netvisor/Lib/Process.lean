/-
Programs as the statements they issue one at a time, so that others may come in
between, and what the statements still to come can do.

A statement is labelled with the phase of the program it belongs to. Alone, a
process is the program that issues all of its statements in turn.
-/
import Mathlib.Order.Basic
import Netvisor.Lib.Program

/-- A process ends, or issues a statement and goes on with what that found. -/
inductive Process (ι ε σ α : Type)
  | ret (a : α)
  | fail (e : ε)
  | stmt (phase : ι) (after : σ → σ) (next : σ → Process ι ε σ α)

namespace Process

variable {ι ε σ α β : Type}

def bind : Process ι ε σ α → (α → Process ι ε σ β) → Process ι ε σ β
  | ret a, f => f a
  | fail e, _ => fail e
  | stmt phase after next, f => stmt phase after fun s => (next s).bind f

instance : Monad (Process ι ε σ) where
  pure := ret
  bind := bind

theorem bind_ret (p : Process ι ε σ α) : p.bind ret = p := by
  induction p with
  | ret a => rfl
  | fail e => rfl
  | stmt phase after next ih => exact congrArg (stmt phase after) (funext ih)

theorem bind_assoc {γ : Type} (p : Process ι ε σ α) (f : α → Process ι ε σ β) (g : β → Process ι ε σ γ) :
    (p.bind f).bind g = p.bind fun a => (f a).bind g := by
  induction p with
  | ret a => rfl
  | fail e => rfl
  | stmt phase after next ih => exact congrArg (stmt phase after) (funext ih)

instance : LawfulMonad (Process ι ε σ) :=
  LawfulMonad.mk' (Process ι ε σ) bind_ret (fun _ _ => rfl) bind_assoc

/-- Issue one statement. -/
def statement (phase : ι) (p : EStateM ε σ α) : Process ι ε σ α :=
  stmt phase (Program.after p) fun s =>
    match p s with
    | .ok a _ => ret a
    | .error e _ => fail e

/-- A statement that reads. -/
def query (phase : ι) (f : σ → α) : Process ι ε σ α := stmt phase id fun s => ret (f s)

/-- Go on with the outcome, whatever it is. -/
def attempt : Process ι ε σ α → Process ι ε σ (Except ε α)
  | ret a => ret (.ok a)
  | fail e => ret (.error e)
  | stmt phase after next => stmt phase after fun s => (next s).attempt

/-- The same process on a larger state: what it does to the part is put there. -/
def within {κ η τ : Type} (label : ι → κ) (error : ε → η) (part : τ → σ) (put : σ → τ → τ) :
    Process ι ε σ α → Process κ η τ α
  | ret a => ret a
  | fail e => fail (error e)
  | stmt phase after next =>
    stmt (label phase) (fun t => put (after (part t)) t) fun t => (next (part t)).within label error part put

/-- The phase of the next statement. -/
def phase : Process ι ε σ α → Option ι
  | stmt phase _ _ => some phase
  | _ => none

/-! ## One statement -/

/-- From `s` the next statement leads to `s'`, and `p'` is left of the process. -/
def Issues (p : Process ι ε σ α) (s s' : σ) (p' : Process ι ε σ α) : Prop :=
  match p with
  | stmt _ after next => s' = after s ∧ p' = next s
  | _ => False

theorem issues_query {phase : ι} {f : σ → α} {k : α → Process ι ε σ β} {s s' : σ} {p' : Process ι ε σ β}
    (h : (query phase f >>= k).Issues s s' p') : s' = s ∧ p' = k (f s) := h

theorem issues_statement {phase : ι} {q : EStateM ε σ α} {k : α → Process ι ε σ β} {s s' : σ} {p' : Process ι ε σ β}
    (h : (statement phase q >>= k).Issues s s' p') :
    (∃ a, q s = .ok a s' ∧ p' = k a) ∨ ∃ e, q s = .error e s' ∧ p' = fail e := by
  obtain ⟨rfl, rfl⟩ := h
  dsimp only [Program.after]
  cases q s with
  | ok a t => exact .inl ⟨a, rfl, rfl⟩
  | error e t => exact .inr ⟨e, rfl, rfl⟩

/-! ## A process alone -/

def run : Process ι ε σ α → EStateM ε σ α
  | ret a => pure a
  | fail e => throw e
  | stmt _ after next => fun s => (next s).run (after s)

@[simp] theorem run_pure (a : α) : (pure a : Process ι ε σ α).run = pure a := rfl

@[simp] theorem run_fail (e : ε) : (fail e : Process ι ε σ α).run = throw e := rfl

@[simp] theorem run_query (phase : ι) (f : σ → α) : (query phase f : Process ι ε σ α).run = f <$> get := rfl

@[simp] theorem run_bind (p : Process ι ε σ α) (f : α → Process ι ε σ β) :
    (p >>= f).run = p.run >>= fun a => (f a).run := by
  induction p with
  | ret a => rfl
  | fail e => rfl
  | stmt phase after next ih =>
    funext s
    exact congrFun (ih s) (after s)

@[simp] theorem run_statement (phase : ι) (p : EStateM ε σ α) : (statement phase p).run = p := by
  funext s
  simp only [statement, run, Program.after]
  cases p s <;> rfl

theorem run_query_bind (phase : ι) (f : σ → α) (k : α → Process ι ε σ β) (s : σ) :
    (query phase f >>= k).run s = (k (f s)).run s := rfl

@[simp] theorem run_mapM (f : α → Process ι ε σ β) (l : List α) : (l.mapM f).run = l.mapM fun a => (f a).run := by
  induction l with
  | nil => rfl
  | cons a l ih => simp only [List.mapM_cons, run_bind, ih, run_pure]

@[simp] theorem run_ite {c : Prop} [Decidable c] (p q : Process ι ε σ α) :
    (if c then p else q).run = if c then p.run else q.run := by
  split <;> rfl

@[simp] theorem run_forM (f : α → Process ι ε σ Unit) (l : List α) : (l.forM f).run = l.forM fun a => (f a).run := by
  induction l with
  | nil => rfl
  | cons a l ih =>
    rw [List.forM, List.forM, run_bind, ih]

/-! ## What the statements do -/

section Does

variable {R : ι → σ → σ → Prop} {p : Process ι ε σ α} {f : α → Process ι ε σ β}

/-- Every statement does to the state what its label allows. -/
def Does (R : ι → σ → σ → Prop) : Process ι ε σ α → Prop
  | stmt phase after next => ∀ s, R phase s (after s) ∧ Does R (next s)
  | _ => True

theorem does_pure (a : α) : Does R (pure a : Process ι ε σ α) := trivial

theorem does_fail (e : ε) : Does R (fail e : Process ι ε σ α) := trivial

theorem Does.bind (h : Does R p) (hf : ∀ a, Does R (f a)) : Does R (p >>= f) := by
  induction p with
  | ret a => exact hf a
  | fail e => trivial
  | stmt phase after next ih => exact fun s => ⟨(h s).1, ih s (h s).2⟩

theorem does_query {label : ι} {g : σ → α} (h : ∀ s, R label s s) : Does R (query label g : Process ι ε σ α) :=
  fun s => ⟨h s, trivial⟩

theorem does_statement {label : ι} {q : EStateM ε σ α} (h : ∀ s, R label s (Program.after q s)) :
    Does R (statement label q) := by
  intro s
  refine ⟨h s, ?_⟩
  dsimp only
  split <;> trivial

theorem Does.attempt (h : Does R p) : Does R p.attempt := by
  induction p with
  | ret a => trivial
  | fail e => trivial
  | stmt phase after next ih => exact fun s => ⟨(h s).1, ih s (h s).2⟩

theorem does_within {κ η τ : Type} {S : κ → τ → τ → Prop} {label : ι → κ} {error : ε → η} {part : τ → σ}
    {put : σ → τ → τ}
    (h : ∀ l s t, S (label l) t (put s t)) (p : Process ι ε σ α) : Does S (p.within label error part put) := by
  induction p with
  | ret a => trivial
  | fail e => trivial
  | stmt phase after next ih => exact fun t => ⟨h phase _ t, ih (part t)⟩

theorem Does.and {S : ι → σ → σ → Prop} (h : Does R p) (h' : Does S p) :
    Does (fun label s t => R label s t ∧ S label s t) p := by
  induction p with
  | ret a => trivial
  | fail e => trivial
  | stmt phase after next ih => exact fun s => ⟨⟨(h s).1, (h' s).1⟩, ih s (h s).2 (h' s).2⟩

theorem Does.mono {S : ι → σ → σ → Prop} (h : Does R p) (hRS : ∀ label s t, R label s t → S label s t) :
    Does S p := by
  induction p with
  | ret a => trivial
  | fail e => trivial
  | stmt phase after next ih => exact fun s => ⟨hRS _ _ _ (h s).1, ih s (h s).2⟩

theorem Does.forM {g : β → Process ι ε σ Unit} (h : ∀ b, Does R (g b)) (l : List β) : Does R (l.forM g) := by
  induction l with
  | nil => trivial
  | cons b l ih =>
    rw [List.forM]
    exact (h b).bind fun _ => ih

end Does

section AtMostOnce

variable {q : ι → Prop} {p : Process ι ε σ α} {f : α → Process ι ε σ β}

/-- No statement has a label of the kind. -/
def Avoids (q : ι → Prop) (p : Process ι ε σ α) : Prop := Does (fun label _ _ => ¬ q label) p

/-- After a statement with a label of the kind there is no other. -/
def AtMostOnce (q : ι → Prop) : Process ι ε σ α → Prop
  | stmt label _ next => ∀ s, AtMostOnce q (next s) ∧ (q label → Avoids q (next s))
  | _ => True

theorem Avoids.atMostOnce (h : Avoids q p) : AtMostOnce q p := by
  induction p with
  | ret a => trivial
  | fail e => trivial
  | stmt label after next ih => exact fun s => ⟨ih s (h s).2, fun hq => absurd hq (h s).1⟩

theorem Avoids.bind_atMostOnce (h : Avoids q p) (hf : ∀ a, AtMostOnce q (f a)) : AtMostOnce q (p >>= f) := by
  induction p with
  | ret a => exact hf a
  | fail e => trivial
  | stmt label after next ih => exact fun s => ⟨ih s (h s).2, fun hq => absurd hq (h s).1⟩

theorem AtMostOnce.bind (h : AtMostOnce q p) (hf : ∀ a, Avoids q (f a)) : AtMostOnce q (p >>= f) := by
  induction p with
  | ret a => exact (hf a).atMostOnce
  | fail e => trivial
  | stmt label after next ih => exact fun s => ⟨ih s (h s).1, fun hq => Does.bind ((h s).2 hq) hf⟩

theorem AtMostOnce.attempt (h : AtMostOnce q p) : AtMostOnce q p.attempt := by
  induction p with
  | ret a => trivial
  | fail e => trivial
  | stmt label after next ih => exact fun s => ⟨ih s (h s).1, fun hq => Does.attempt ((h s).2 hq)⟩

theorem atMostOnce_statement {label : ι} {q' : EStateM ε σ α} : AtMostOnce q (statement label q') := by
  intro s
  dsimp only
  split <;> exact ⟨trivial, fun _ => trivial⟩

end AtMostOnce

section Within

variable [Preorder ι] {R R' : ι → σ → σ → Prop} {lo mid hi : ι} {p : Process ι ε σ α} {f : α → Process ι ε σ β}

/-- The phases never go back, stay between `lo` and `hi`, and every statement
does to the state what its phase allows. -/
def Within (R : ι → σ → σ → Prop) : ι → ι → Process ι ε σ α → Prop
  | lo, hi, stmt phase after next =>
    lo ≤ phase ∧ phase ≤ hi ∧ ∀ s, R phase s (after s) ∧ Within R phase hi (next s)
  | _, _, _ => True

theorem within_pure (a : α) : Within R lo hi (pure a : Process ι ε σ α) := trivial

theorem within_fail (e : ε) : Within R lo hi (fail e : Process ι ε σ α) := trivial

theorem Within.mono (h : Within R lo hi p) {lo' hi' : ι} (hlo : lo' ≤ lo) (hhi : hi ≤ hi') : Within R lo' hi' p := by
  induction p generalizing lo lo' with
  | ret a => trivial
  | fail e => trivial
  | stmt phase after next ih =>
    obtain ⟨h1, h2, h3⟩ := h
    exact ⟨hlo.trans h1, h2.trans hhi, fun s => ⟨(h3 s).1, ih s (h3 s).2 le_rfl⟩⟩

/-- One process after the other, in phases after those of the first. -/
theorem Within.bind (h : Within R lo mid p) (hle : mid ≤ hi) (hlo : lo ≤ mid) (hf : ∀ a, Within R mid hi (f a)) :
    Within R lo hi (p >>= f) := by
  induction p generalizing lo with
  | ret a => exact (hf a).mono hlo le_rfl
  | fail e => trivial
  | stmt phase after next ih =>
    obtain ⟨h1, h2, h3⟩ := h
    exact ⟨h1, h2.trans hle, fun s => ⟨(h3 s).1, ih s (h3 s).2 h2⟩⟩

/-! ### Processes of one phase -/

theorem Within.seq (h : Within R lo lo p) (hf : ∀ a, Within R lo lo (f a)) : Within R lo lo (p >>= f) :=
  h.bind le_rfl le_rfl hf

theorem within_statement {q : EStateM ε σ α} (h : ∀ s, R lo s (Program.after q s)) :
    Within R lo lo (statement lo q) := by
  refine ⟨le_rfl, le_rfl, fun s => ⟨h s, ?_⟩⟩
  dsimp only
  split <;> trivial

theorem within_query {g : σ → α} (h : ∀ s, R lo s s) : Within R lo lo (query lo g : Process ι ε σ α) :=
  ⟨le_rfl, le_rfl, fun s => ⟨h s, trivial⟩⟩

theorem Within.mapM {g : β → Process ι ε σ α} (h : ∀ b, Within R lo lo (g b)) (l : List β) :
    Within R lo lo (l.mapM g) := by
  induction l with
  | nil => trivial
  | cons b l ih =>
    rw [List.mapM_cons]
    exact (h b).seq fun _ => ih.seq fun _ => within_pure _

theorem Within.ite {c : Prop} [Decidable c] {q : Process ι ε σ α} (hp : Within R lo hi p) (hq : Within R lo hi q) :
    Within R lo hi (if c then p else q) := by
  split
  · exact hp
  · exact hq

end Within

end Process
