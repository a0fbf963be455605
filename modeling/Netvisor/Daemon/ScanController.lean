/-
The controller of the concurrency of a scan: it halves the batch size when file
descriptors run out and lets it grow again after successes. Its calls come from
all scans at once, and each is a sequence of accesses to atomics that those of
others may come in between.

The size stays between the minimum and the target whatever happens. The flag
and the streak do not follow it in all cases. At the minimum, and within the
cooldown, exhaustion sets the flag without looking at the target, and at the
minimum it leaves the streak standing; and a recovery that is under way does not
notice exhaustion.
-/
import Mathlib.Algebra.Group.Nat.Defs
import Netvisor.Lib.Transition
import Netvisor.Lib.Underway

namespace Netvisor

def portScanBatchMin : Nat := 16

def recoveryThreshold : Nat := 50

def degradationCooldownMs : Nat := 500

structure ScanConcurrencyController where
  currentBatchSize : Nat
  targetBatchSize : Nat
  degraded : Bool := false
  successStreak : Nat := 0
  lastDegradationMs : Nat := 0
deriving DecidableEq, Repr

namespace ScanConcurrencyController

def new (initialBatchSize : Nat) : ScanConcurrencyController where
  currentBatchSize := initialBatchSize
  targetBatchSize := initialBatchSize

/-- A call under way, by its next access. -/
inductive Call
  -- `on_fd_exhaustion`
  | loadLast (nowMs : Nat)
  | skipMark
  | skipReset
  | loadSize (nowMs : Nat)
  | floorMark
  | exchange (nowMs current newSize : Nat)
  | mark (nowMs : Nat)
  | reset (nowMs : Nat)
  | stamp (nowMs : Nat)
  -- `on_success`
  | loadDegraded
  | count
  | load
  | store (current newSize : Nat)
  | clearStreak (newSize : Nat)
  | clearDegraded
deriving DecidableEq, Repr

/-- Concurrent errors of one spike: the last degradation was very recent. -/
def rateLimited (c : ScanConcurrencyController) (nowMs : Nat) : Bool :=
  0 < c.lastDegradationMs && nowMs - c.lastDegradationMs < degradationCooldownMs

/-- The next access, and what is left of the call. -/
def access (c : ScanConcurrencyController) : Call → ScanConcurrencyController × Option Call
  | .loadLast nowMs =>
    if c.rateLimited nowMs then (c, some .skipMark) else (c, some (.loadSize nowMs))
  | .skipMark => ({ c with degraded := true }, some .skipReset)
  | .skipReset => ({ c with successStreak := 0 }, none)
  | .loadSize nowMs =>
    let newSize := max (c.currentBatchSize / 2) portScanBatchMin
    if c.currentBatchSize = newSize ∧ c.currentBatchSize = portScanBatchMin then (c, some .floorMark)
    else (c, some (.exchange nowMs c.currentBatchSize newSize))
  | .floorMark => ({ c with degraded := true }, none)
  | .exchange nowMs current newSize =>
    if c.currentBatchSize = current then ({ c with currentBatchSize := newSize }, some (.mark nowMs))
    else (c, some (.loadSize nowMs))
  | .mark nowMs => ({ c with degraded := true }, some (.reset nowMs))
  | .reset nowMs => ({ c with successStreak := 0 }, some (.stamp nowMs))
  | .stamp nowMs => ({ c with lastDegradationMs := max nowMs 1 }, none)
  | .loadDegraded => (c, if c.degraded then some .count else none)
  | .count => ({ c with successStreak := c.successStreak + 1 },
      if recoveryThreshold ≤ c.successStreak + 1 then some .load else none)
  | .load =>
    let newSize := min (c.currentBatchSize * 125 % 2 ^ 64 / 100) c.targetBatchSize
    (c, if c.currentBatchSize < newSize then some (.store c.currentBatchSize newSize) else none)
  | .store _ newSize => ({ c with currentBatchSize := newSize }, some (.clearStreak newSize))
  | .clearStreak newSize => ({ c with successStreak := 0 },
      if c.targetBatchSize ≤ newSize then some .clearDegraded else none)
  | .clearDegraded => ({ c with degraded := false }, none)

/-- A success is reported where it is counted, or where it need not be. -/
def reports (c : ScanConcurrencyController) : Call → Nat
  | .loadDegraded => if c.degraded then 0 else 1
  | .count => 1
  | _ => 0

/-! ## Calls at once -/

/-- A controller with the calls under way, and how many successes were reported
since the last exhaustion. -/
structure Calls where
  controller : ScanConcurrencyController
  calls : List Call := []
  successes : Nat := 0
deriving DecidableEq, Repr

inductive Action
  | onFdExhaustion (nowMs : Nat)
  | onSuccess
  /-- The next access of a call. -/
  | access (i : Nat)
deriving DecidableEq, Repr

def step (s : Calls) : Action → Option Calls
  | .onFdExhaustion nowMs => some { s with calls := s.calls ++ [.loadLast nowMs], successes := 0 }
  | .onSuccess => some { s with calls := s.calls ++ [.loadDegraded] }
  | .access i => s.calls[i]?.map fun call =>
    { controller := (s.controller.access call).1
      calls := Underway.settle s.calls i (s.controller.access call).2
      successes := s.successes + s.controller.reports call }

def start (target : Nat) : Calls := { controller := new target }

/-- A call that has a store to the flag ahead. -/
def Call.marks (target : Nat) : Call → Bool
  | skipMark | floorMark | mark _ | clearDegraded => true
  | clearStreak newSize => target ≤ newSize
  | _ => false

/-- The size is within its bounds, and the flag tells whether it is below the
target, but for a call that is about to store the flag. -/
def Consistent (s : Calls) : Prop :=
  portScanBatchMin ≤ s.controller.currentBatchSize ∧ s.controller.currentBatchSize ≤ s.controller.targetBatchSize ∧
    ((∀ call ∈ s.calls, call.marks s.controller.targetBatchSize = false) →
      (s.controller.degraded ↔ s.controller.currentBatchSize < s.controller.targetBatchSize))

instance (s : Calls) : Decidable (Consistent s) := by unfold Consistent; infer_instance

/-- The size grows only when enough successes were reported. -/
def Earned (s : Calls) (_ : Action) (t : Calls) : Prop :=
  s.controller.currentBatchSize < t.controller.currentBatchSize → recoveryThreshold ≤ s.successes

instance (s : Calls) (a : Action) (t : Calls) : Decidable (Earned s a t) := by unfold Earned; infer_instance

/-! ## What goes wrong -/

/-- A call of `on_fd_exhaustion` that has not yet reset the streak or set the
flag. -/
def Call.exhausting : Call → Bool
  | loadLast _ | skipMark | skipReset | loadSize _ | floorMark | exchange _ _ _ | mark _ | reset _ => true
  | _ => false

/-- A call of `on_success` that has reached the threshold. -/
def Call.recovering (target : Nat) : Call → Bool
  | load | store _ _ | clearDegraded => true
  | clearStreak newSize => target ≤ newSize
  | _ => false

/-- Exhaustion that is skipped finds the size below the target; at the minimum
it finds the target above it and a streak of successes since; and a recovery
overlaps neither with exhaustion nor with another change of the size. -/
def AccessOk (s : Calls) : Call → Prop
  | .loadLast nowMs =>
    s.controller.rateLimited nowMs → s.controller.currentBatchSize < s.controller.targetBatchSize
  | .loadSize _ =>
    s.controller.currentBatchSize = portScanBatchMin →
      portScanBatchMin < s.controller.targetBatchSize ∧ s.controller.successStreak ≤ s.successes
  | .count => recoveryThreshold ≤ s.controller.successStreak + 1 → ∀ other ∈ s.calls, other.exhausting = false
  | .store current _ => s.controller.currentBatchSize = current
  | _ => True

def Meets (s : Calls) : Action → Prop
  | .onFdExhaustion _ => ∀ call ∈ s.calls, call.recovering s.controller.targetBatchSize = false
  | .onSuccess => True
  | .access i =>
    match s.calls[i]? with
    | some call => AccessOk s call
    | none => True

instance (s : Calls) (call : Call) : Decidable (AccessOk s call) := by
  unfold AccessOk
  split <;> infer_instance

instance (s : Calls) (a : Action) : Decidable (Meets s a) := by
  unfold Meets
  split
  · infer_instance
  · infer_instance
  · split <;> infer_instance

/-! ## The invariant -/

/-- A call that has a store to the streak ahead. -/
def Call.resets : Call → Bool
  | loadLast _ | skipMark | skipReset | loadSize _ | exchange _ _ _ | mark _ | reset _ => true
  | _ => false

theorem Call.exhausting_of_resets {call : Call} (h : call.resets) : call.exhausting := by
  cases call <;> first | rfl | cases h

/-- What holds of a call under way. -/
def Call.Holds (c : ScanConcurrencyController) (successes : Nat) : Call → Prop
  | exchange _ current newSize => portScanBatchMin ≤ newSize ∧ newSize < current
  | skipMark | floorMark | mark _ => c.currentBatchSize < c.targetBatchSize
  | load => recoveryThreshold ≤ successes
  | store current newSize => current < newSize ∧ newSize ≤ c.targetBatchSize ∧ recoveryThreshold ≤ successes
  | clearStreak newSize => c.targetBatchSize ≤ newSize → c.currentBatchSize = c.targetBatchSize
  | clearDegraded => c.currentBatchSize = c.targetBatchSize
  | _ => True

structure Inv (s : Calls) : Prop where
  minimum : portScanBatchMin ≤ s.controller.currentBatchSize
  target : s.controller.currentBatchSize ≤ s.controller.targetBatchSize
  holds : ∀ call ∈ s.calls, call.Holds s.controller s.successes
  exclusive : ∀ call ∈ s.calls, call.recovering s.controller.targetBatchSize →
    ∀ other ∈ s.calls, other.exhausting = false
  flag : (∀ call ∈ s.calls, call.marks s.controller.targetBatchSize = false) →
    (s.controller.degraded ↔ s.controller.currentBatchSize < s.controller.targetBatchSize)
  streak : (∀ call ∈ s.calls, call.resets = false) → s.controller.successStreak ≤ s.successes

theorem Call.Holds.mono {c c' : ScanConcurrencyController} {m n : Nat} {call : Call} (h : call.Holds c m)
    (hsize : c'.currentBatchSize = c.currentBatchSize) (htarget : c'.targetBatchSize = c.targetBatchSize)
    (hle : m ≤ n) :
    call.Holds c' n := by
  cases call with
  | load => exact Nat.le_trans h hle
  | store current newSize => exact ⟨h.1, by rw [htarget]; exact h.2.1, Nat.le_trans h.2.2 hle⟩
  | skipMark | floorMark | mark | clearStreak | clearDegraded =>
    simp only [Call.Holds, hsize, htarget] at h ⊢
    exact h
  | loadLast | skipReset | loadSize | exchange | reset | stamp | loadDegraded | count => exact h

/-- What a call goes on with: it recovers only if it did, or nothing is
exhausting, and it is exhausting only if it was. -/
def Call.Follows (c : ScanConcurrencyController) (n : Nat) (calls : List Call) (call x : Call) : Prop :=
  x.Holds c n ∧
    (x.recovering c.targetBatchSize → call.recovering c.targetBatchSize ∨ ∀ other ∈ calls, other.exhausting = false) ∧
    (x.exhausting → call.exhausting)

/-- What is to be shown of an access: for what goes on of the call, and for the
calls there are. -/
theorem Inv.settle {s : Calls} {i : Nat} {call : Call} (h : Inv s) (hcall : s.calls[i]? = some call)
    {c : ScanConcurrencyController} (next : Option Call) {n : Nat}
    (htarget : c.targetBatchSize = s.controller.targetBatchSize)
    (hmin : portScanBatchMin ≤ c.currentBatchSize) (hmax : c.currentBatchSize ≤ c.targetBatchSize)
    (hothers : ∀ other ∈ s.calls, other.Holds s.controller s.successes → other.Holds c n)
    (hnext : ∀ x, next = some x → call.Follows c n s.calls x)
    (hflag : (call.marks c.targetBatchSize = false ∧
        ((s.controller.degraded ↔ s.controller.currentBatchSize < c.targetBatchSize) →
          (c.degraded ↔ c.currentBatchSize < c.targetBatchSize))) ∨
      (∃ x, next = some x ∧ x.marks c.targetBatchSize) ∨ (c.degraded ↔ c.currentBatchSize < c.targetBatchSize))
    (hstreak : (call.resets = false ∧ (s.controller.successStreak ≤ s.successes → c.successStreak ≤ n)) ∨
      (∃ x, next = some x ∧ x.resets) ∨ c.successStreak ≤ n) :
    Inv { controller := c, calls := Underway.settle s.calls i next, successes := n } := by
  have hmem : call ∈ s.calls := List.mem_of_getElem? hcall
  refine ⟨hmin, hmax, fun other hother => ?_, fun x hx hrec other hother => ?_, fun hmarks => ?_, fun hresets => ?_⟩
  · rcases Underway.mem_settle hother with ho | ho
    · exact hothers other ho (h.holds other ho)
    · exact (hnext other ho).1
  · have hclear : ∀ o ∈ s.calls, o.exhausting = false := by
      rcases Underway.mem_settle hx with hx | hx
      · exact h.exclusive x hx (by rw [← htarget]; exact hrec)
      · rcases (hnext x hx).2.1 hrec with hcallrec | hclear
        · exact h.exclusive call hmem (by rw [← htarget]; exact hcallrec)
        · exact hclear
    rcases Underway.mem_settle hother with ho | ho
    · exact hclear other ho
    · by_contra hexh
      have hcallexh := (hnext other ho).2.2 (by simpa using hexh)
      rw [hclear call hmem] at hcallexh
      cases hcallexh
  · rcases hflag with ⟨hcallmarks, himp⟩ | ⟨x, hx, hxmarks⟩ | hdirect
    · refine himp ?_
      have hold := h.flag fun other ho => by
        by_cases hne : other = call
        · rw [hne, ← htarget]
          exact hcallmarks
        · rw [← htarget]
          exact hmarks other (Underway.mem_settle_of_ne hcall ho hne)
      rwa [← htarget] at hold
    · rw [hmarks x (Underway.next_mem_settle hcall hx)] at hxmarks
      cases hxmarks
    · exact hdirect
  · rcases hstreak with ⟨hcallresets, himp⟩ | ⟨x, hx, hxresets⟩ | hdirect
    · refine himp (h.streak fun other ho => ?_)
      by_cases hne : other = call
      · rw [hne]
        exact hcallresets
      · exact hresets other (Underway.mem_settle_of_ne hcall ho hne)
    · rw [hresets x (Underway.next_mem_settle hcall hx)] at hxresets
      cases hxresets
    · exact hdirect

/-- An access that leaves the size and the flag as they are. -/
theorem Inv.leaves {s : Calls} {i : Nat} {call : Call} (h : Inv s) (hcall : s.calls[i]? = some call)
    {c : ScanConcurrencyController} (next : Option Call) {n : Nat} (hle : s.successes ≤ n)
    (htarget : c.targetBatchSize = s.controller.targetBatchSize)
    (hsize : c.currentBatchSize = s.controller.currentBatchSize) (hdegraded : c.degraded = s.controller.degraded)
    (hnext : ∀ x, next = some x → call.Follows c n s.calls x)
    (hmarks : call.marks c.targetBatchSize = false ∨ ∃ x, next = some x ∧ x.marks c.targetBatchSize)
    (hstreak : (call.resets = false ∧ (s.controller.successStreak ≤ s.successes → c.successStreak ≤ n)) ∨
      (∃ x, next = some x ∧ x.resets) ∨ c.successStreak ≤ n) :
    Inv { controller := c, calls := Underway.settle s.calls i next, successes := n } := by
  have hmin : portScanBatchMin ≤ c.currentBatchSize := by rw [hsize]; exact h.minimum
  have hmax : c.currentBatchSize ≤ c.targetBatchSize := by rw [hsize, htarget]; exact h.target
  refine h.settle hcall next htarget hmin hmax (fun other _ ho => ho.mono hsize htarget hle) hnext ?_ hstreak
  rcases hmarks with hmarks | hmarks
  · exact .inl ⟨hmarks, fun hflag => by rw [hdegraded, hsize]; exact hflag⟩
  · exact .inr (.inl hmarks)

/-- A store to the flag that makes it exact. -/
theorem Inv.stores {s : Calls} {i : Nat} {call : Call} (h : Inv s) (hcall : s.calls[i]? = some call) (degraded : Bool)
    (next : Option Call) (hexact : degraded ↔ s.controller.currentBatchSize < s.controller.targetBatchSize)
    (hnext : ∀ x, next = some x → call.Follows { s.controller with degraded } s.successes s.calls x)
    (hstreak : call.resets = false ∨ ∃ x, next = some x ∧ x.resets) :
    Inv { controller := { s.controller with degraded }, calls := Underway.settle s.calls i next,
          successes := s.successes } := by
  refine h.settle hcall next rfl h.minimum h.target (fun other _ ho => ho.mono rfl rfl (Nat.le_refl _)) hnext
    (.inr (.inr hexact)) ?_
  rcases hstreak with hresets | hnextresets
  · exact .inl ⟨hresets, id⟩
  · exact .inr (.inl hnextresets)

/-- No call recovers while one is exhausting. -/
theorem Inv.not_recovering {s : Calls} (h : Inv s) {call : Call} (hmem : call ∈ s.calls) (hexh : call.exhausting)
    {other : Call} (hother : other ∈ s.calls) : other.recovering s.controller.targetBatchSize = false := by
  by_contra hrec
  have hcall := h.exclusive other hother (by simpa using hrec) call hmem
  rw [hexh] at hcall
  cases hcall

theorem Inv.access {s : Calls} {i : Nat} {call : Call} (h : Inv s) (hcall : s.calls[i]? = some call)
    (hok : AccessOk s call) :
    Inv { controller := (s.controller.access call).1
          calls := Underway.settle s.calls i (s.controller.access call).2
          successes := s.successes + s.controller.reports call } := by
  have hmem : call ∈ s.calls := List.mem_of_getElem? hcall
  have hholds := h.holds call hmem
  cases call with
  | loadLast nowMs =>
    simp only [ScanConcurrencyController.access]
    split
    · next hlimited =>
      refine h.leaves hcall (some .skipMark) (Nat.le_refl _) rfl rfl rfl ?_ (.inl rfl) (.inr (.inl ⟨_, rfl, rfl⟩))
      rintro _ ⟨⟩
      exact ⟨hok hlimited, nofun, fun _ => rfl⟩
    · refine h.leaves hcall (some (.loadSize nowMs)) (Nat.le_refl _) rfl rfl rfl ?_ (.inl rfl)
        (.inr (.inl ⟨_, rfl, rfl⟩))
      rintro _ ⟨⟩
      exact ⟨trivial, nofun, fun _ => rfl⟩
  | skipMark =>
    refine h.stores hcall true (some .skipReset) (iff_of_true rfl hholds) ?_ (.inr ⟨_, rfl, rfl⟩)
    rintro _ ⟨⟩
    exact ⟨trivial, nofun, fun _ => rfl⟩
  | skipReset =>
    exact h.leaves hcall none (Nat.le_refl _) rfl rfl rfl nofun (.inl rfl) (.inr (.inr (Nat.zero_le _)))
  | loadSize nowMs =>
    simp only [ScanConcurrencyController.access]
    split
    · next hfloor =>
      obtain ⟨htarget, hstreak⟩ := hok hfloor.2
      refine h.leaves hcall (some .floorMark) (Nat.le_refl _) rfl rfl rfl ?_ (.inl rfl) (.inr (.inr hstreak))
      rintro _ ⟨⟩
      refine ⟨?_, nofun, fun _ => rfl⟩
      show s.controller.currentBatchSize < s.controller.targetBatchSize
      rw [hfloor.2]
      exact htarget
    · next hfloor =>
      refine h.leaves hcall (some (.exchange _ _ _)) (Nat.le_refl _) rfl rfl rfl ?_ (.inl rfl)
        (.inr (.inl ⟨_, rfl, rfl⟩))
      rintro _ ⟨⟩
      have hmin := h.minimum
      refine ⟨⟨Nat.le_max_right _ _, ?_⟩, nofun, fun _ => rfl⟩
      simp only [portScanBatchMin] at hmin hfloor ⊢
      omega
  | floorMark => exact h.stores hcall true none (iff_of_true rfl hholds) nofun (.inl rfl)
  | exchange nowMs current newSize =>
    obtain ⟨hmin, hlt⟩ := hholds
    have htarget := h.target
    simp only [ScanConcurrencyController.access]
    split
    · next hsame =>
      refine h.settle hcall (some (.mark nowMs)) rfl hmin (by simp only; omega) (fun other hother ho => ?_) ?_
        (.inr (.inl ⟨_, rfl, rfl⟩)) (.inr (.inl ⟨_, rfl, rfl⟩))
      · -- no call recovers, and the others want the size below the target
        have hrec := h.not_recovering hmem rfl hother
        cases other with
        | skipMark | floorMark | mark =>
          show newSize < s.controller.targetBatchSize
          omega
        | load | store | clearDegraded => cases hrec
        | clearStreak size =>
          intro hle
          simp only [Call.recovering, decide_eq_false_iff_not] at hrec
          exact absurd hle hrec
        | loadLast | skipReset | loadSize | exchange | reset | stamp | loadDegraded | count => exact ho
      · rintro _ ⟨⟩
        refine ⟨?_, nofun, fun _ => rfl⟩
        show newSize < s.controller.targetBatchSize
        omega
    · refine h.leaves hcall (some (.loadSize nowMs)) (Nat.le_refl _) rfl rfl rfl ?_ (.inl rfl)
        (.inr (.inl ⟨_, rfl, rfl⟩))
      rintro _ ⟨⟩
      exact ⟨trivial, nofun, fun _ => rfl⟩
  | mark nowMs =>
    refine h.stores hcall true (some (.reset nowMs)) (iff_of_true rfl hholds) ?_ (.inr ⟨_, rfl, rfl⟩)
    rintro _ ⟨⟩
    exact ⟨trivial, nofun, fun _ => rfl⟩
  | reset nowMs =>
    refine h.leaves hcall (some (.stamp nowMs)) (Nat.le_refl _) rfl rfl rfl ?_ (.inl rfl)
      (.inr (.inr (Nat.zero_le _)))
    rintro _ ⟨⟩
    exact ⟨trivial, nofun, nofun⟩
  | stamp nowMs => exact h.leaves hcall none (Nat.le_refl _) rfl rfl rfl nofun (.inl rfl) (.inl ⟨rfl, id⟩)
  | loadDegraded =>
    simp only [ScanConcurrencyController.access, ScanConcurrencyController.reports]
    refine h.leaves hcall _ (Nat.le_add_right _ _) rfl rfl rfl ?_ (.inl rfl)
      (.inl ⟨rfl, fun hs => Nat.le_trans hs (Nat.le_add_right _ _)⟩)
    intro x hx
    simp only [Option.ite_none_right_eq_some, Option.some.injEq] at hx
    obtain ⟨-, rfl⟩ := hx
    exact ⟨trivial, nofun, nofun⟩
  | count =>
    simp only [ScanConcurrencyController.access, ScanConcurrencyController.reports]
    refine h.leaves hcall _ (Nat.le_add_right _ _) rfl rfl rfl ?_ (.inl rfl)
      (.inl ⟨rfl, fun hs => Nat.succ_le_succ hs⟩)
    intro x hx
    simp only [Option.ite_none_right_eq_some, Option.some.injEq] at hx
    obtain ⟨hthreshold, rfl⟩ := hx
    have hclear := hok hthreshold
    have hstreak := h.streak fun other hother => by
      by_contra hresets
      have hexh := Call.exhausting_of_resets (by simpa using hresets)
      rw [hclear other hother] at hexh
      cases hexh
    exact ⟨Nat.le_trans hthreshold (Nat.succ_le_succ hstreak), fun _ => .inr hclear, nofun⟩
  | load =>
    simp only [ScanConcurrencyController.access, ScanConcurrencyController.reports]
    refine h.leaves hcall _ (Nat.le_refl _) rfl rfl rfl ?_ (.inl rfl) (.inl ⟨rfl, id⟩)
    intro x hx
    simp only [Option.ite_none_right_eq_some, Option.some.injEq] at hx
    obtain ⟨hlt, rfl⟩ := hx
    exact ⟨⟨hlt, Nat.min_le_right _ _, hholds⟩, fun _ => .inl rfl, nofun⟩
  | store current newSize =>
    obtain ⟨hlt, htarget, hearned⟩ := hholds
    have hsame : s.controller.currentBatchSize = current := hok
    have hmin := h.minimum
    simp only [ScanConcurrencyController.access, ScanConcurrencyController.reports]
    refine h.settle hcall (some (.clearStreak newSize)) rfl (by simp only; omega) htarget
      (fun other hother ho => ?_) ?_ ?_
      (.inl ⟨rfl, id⟩)
    · -- no call is exhausting, and none has found the size at the target
      have hexh := h.exclusive _ hmem rfl other hother
      cases other with
      | skipMark | floorMark | mark => cases hexh
      | clearDegraded =>
        have hat : s.controller.currentBatchSize = s.controller.targetBatchSize := ho
        omega
      | clearStreak size =>
        intro hle
        have hat : s.controller.currentBatchSize = s.controller.targetBatchSize := ho hle
        omega
      | loadLast | skipReset | loadSize | exchange | reset | stamp | loadDegraded | count | load | store => exact ho
    · rintro _ ⟨⟩
      exact ⟨fun hle => Nat.le_antisymm htarget hle, fun _ => .inl rfl, nofun⟩
    · by_cases hfull : s.controller.targetBatchSize ≤ newSize
      · exact .inr (.inl ⟨_, rfl, by simpa [Call.marks] using hfull⟩)
      · refine .inl ⟨rfl, fun hflag => hflag.trans ?_⟩
        simp only
        omega
  | clearStreak newSize =>
    have hat : s.controller.targetBatchSize ≤ newSize →
      s.controller.currentBatchSize = s.controller.targetBatchSize := hholds
    simp only [ScanConcurrencyController.access, ScanConcurrencyController.reports]
    refine h.leaves hcall _ (Nat.le_refl _) rfl rfl rfl ?_ ?_ (.inr (.inr (Nat.zero_le _)))
    · intro x hx
      simp only [Option.ite_none_right_eq_some, Option.some.injEq] at hx
      obtain ⟨hle, rfl⟩ := hx
      exact ⟨hat hle, fun _ => .inl (by simpa [Call.recovering] using hle), nofun⟩
    · by_cases hle : s.controller.targetBatchSize ≤ newSize
      · exact .inr ⟨.clearDegraded, by simp [hle], rfl⟩
      · exact .inl (by simpa [Call.marks] using hle)
  | clearDegraded =>
    have hat : s.controller.currentBatchSize = s.controller.targetBatchSize := hholds
    exact h.stores hcall false none (by simp [hat]) nofun (.inl rfl)

/-- A call that begins. -/
theorem Inv.begins {s : Calls} (h : Inv s) (call : Call) {n : Nat}
    (hothers : ∀ other ∈ s.calls, other.Holds s.controller s.successes → other.Holds s.controller n)
    (hholds : call.Holds s.controller n)
    (hrec : call.recovering s.controller.targetBatchSize = false)
    (hexh : (∀ other ∈ s.calls, other.recovering s.controller.targetBatchSize = false) ∨ call.exhausting = false)
    (hstreak : call.resets ∨ n = s.successes) :
    Inv { s with calls := s.calls ++ [call], successes := n } := by
  refine ⟨h.minimum, h.target, fun other hother => ?_, fun x hx hxrec other hother => ?_, fun hall => ?_,
    fun hall => ?_⟩
  · rcases List.mem_append.mp hother with ho | ho
    · exact hothers other ho (h.holds other ho)
    · rw [List.mem_singleton.mp ho]
      exact hholds
  · have hxmem : x ∈ s.calls := by
      rcases List.mem_append.mp hx with hx | hx
      · exact hx
      · rw [List.mem_singleton.mp hx] at hxrec
        exact absurd hxrec (by rw [hrec]; exact Bool.false_ne_true)
    rcases List.mem_append.mp hother with ho | ho
    · exact h.exclusive x hxmem hxrec other ho
    · rw [List.mem_singleton.mp ho]
      rcases hexh with hnone | hexh
      · exact absurd hxrec (by rw [hnone x hxmem]; exact Bool.false_ne_true)
      · exact hexh
  · exact h.flag fun other ho => hall other (List.mem_append_left _ ho)
  · have hcall := hall call (List.mem_append_right _ (List.mem_singleton.mpr rfl))
    rcases hstreak with hresets | rfl
    · rw [hcall] at hresets
      cases hresets
    · exact h.streak fun other ho => hall other (List.mem_append_left _ ho)

theorem Inv.step {s t : Calls} {a : Action} (h : Inv s) (hok : Meets s a)
    (hstep : ScanConcurrencyController.step s a = some t) : Inv t := by
  cases a with
  | onFdExhaustion nowMs =>
    obtain rfl := Option.some.inj hstep
    refine h.begins (.loadLast nowMs) (fun other hother ho => ?_) trivial rfl (.inl hok) (.inl rfl)
    have hrec := hok other hother
    -- only the calls that recover look at the successes
    cases other with
    | load | store => cases hrec
    | loadLast | skipMark | skipReset | loadSize | floorMark | exchange | mark | reset | stamp | loadDegraded | count
    | clearStreak | clearDegraded => exact ho
  | onSuccess =>
    obtain rfl := Option.some.inj hstep
    exact h.begins .loadDegraded (fun _ _ ho => ho) trivial rfl (.inr rfl) (.inr rfl)
  | access i =>
    simp only [ScanConcurrencyController.step, Option.map_eq_some_iff] at hstep
    obtain ⟨call, hcall, rfl⟩ := hstep
    have haccess : AccessOk s call := by
      simp only [Meets, hcall] at hok
      exact hok
    exact h.access hcall haccess

theorem inv_start {target : Nat} (h : portScanBatchMin ≤ target) : Inv (start target) where
  minimum := h
  target := Nat.le_refl _
  holds := nofun
  exclusive := nofun
  flag _ := by simp [start, new]
  streak _ := Nat.le_refl _

theorem Inv.consistent {s : Calls} (h : Inv s) : Consistent s := ⟨h.minimum, h.target, h.flag⟩

/-- The size grows with the store of a recovery only. -/
theorem Inv.earned {s t : Calls} {a : Action} (h : Inv s) (hstep : ScanConcurrencyController.step s a = some t) :
    Earned s a t := by
  intro hgrows
  cases a with
  | onFdExhaustion | onSuccess =>
    obtain rfl := Option.some.inj hstep
    exact absurd hgrows (Nat.lt_irrefl _)
  | access i =>
    simp only [ScanConcurrencyController.step, Option.map_eq_some_iff] at hstep
    obtain ⟨call, hcall, rfl⟩ := hstep
    have hholds := h.holds call (List.mem_of_getElem? hcall)
    cases call with
    | store current newSize => exact hholds.2.2
    | exchange nowMs current newSize =>
      obtain ⟨-, hlt⟩ := hholds
      simp only [ScanConcurrencyController.access] at hgrows
      split at hgrows
      · next hsame => exact absurd hgrows (by simp only; omega)
      · exact absurd hgrows (Nat.lt_irrefl _)
    | loadLast | loadSize =>
      simp only [ScanConcurrencyController.access] at hgrows
      split at hgrows <;> exact absurd hgrows (Nat.lt_irrefl _)
    | skipMark | skipReset | floorMark | mark | reset | stamp | loadDegraded | count | load | clearStreak
    | clearDegraded => exact absurd hgrows (Nat.lt_irrefl _)

/-- **In a run whose calls meet the condition the size keeps its bounds, the flag
tells whether it is below the target, and it grows only after enough successes
since the last exhaustion.** -/
theorem consistent_of_meets {target : Nat} (htarget : portScanBatchMin ≤ target) {as : List Action}
    (hmeets : Transition.Along step Meets (start target) as) :
    Transition.Visits step Consistent (start target) as ∧ Transition.Every step Earned (start target) as :=
  ⟨hmeets.visits (fun _ _ _ h hok hstep => h.step hok hstep) (fun _ h => h.consistent) (inv_start htarget),
    hmeets.every (fun _ _ _ h hok hstep => h.step hok hstep) (fun _ _ _ h _ hstep => h.earned hstep)
      (inv_start htarget)⟩

/-- The batch is halved, and a success follows. -/
def halvedRun : List Action :=
  .onFdExhaustion 1000 :: List.replicate 6 (.access 0) ++ [.onSuccess, .access 0, .access 0]

theorem consistent_halvedRun :
    Transition.Visits step Consistent (start 200) halvedRun ∧ Transition.Every step Earned (start 200) halvedRun :=
  consistent_of_meets (by decide) (by decide +kernel)

/-- One success short of recovery, descriptors run out at the minimum. -/
def floorRun : List Action :=
  .onFdExhaustion 1000 :: List.replicate 6 (.access 0) ++
    (List.replicate 49 [.onSuccess, .access 0, .access 0]).flatten ++
    .onFdExhaustion 2000 :: List.replicate 3 (.access 0) ++ .onSuccess :: List.replicate 5 (.access 0)

theorem floorRun_not_earned :
    ¬(Transition.Visits step Consistent (start 32) floorRun ∧ Transition.Every step Earned (start 32) floorRun) := by
  decide +kernel

/-! ## The bounds -/

/-- The sizes a call is about to store. -/
def Call.Within (target : Nat) : Call → Prop
  | exchange _ current newSize => portScanBatchMin ≤ newSize ∧ newSize ≤ current
  | store _ newSize => portScanBatchMin ≤ newSize ∧ newSize ≤ target
  | _ => True

/-- What holds whatever the calls do. -/
structure Bounded (target : Nat) (s : Calls) : Prop where
  targetBatchSize : s.controller.targetBatchSize = target
  minimum : portScanBatchMin ≤ s.controller.currentBatchSize
  maximum : s.controller.currentBatchSize ≤ target
  within : ∀ call ∈ s.calls, call.Within target

theorem Bounded.access {target : Nat} {c : ScanConcurrencyController} {call : Call}
    (htarget : c.targetBatchSize = target)
    (hmin : portScanBatchMin ≤ c.currentBatchSize) (hmax : c.currentBatchSize ≤ target) (hcall : call.Within target) :
    (c.access call).1.targetBatchSize = target ∧ portScanBatchMin ≤ (c.access call).1.currentBatchSize ∧
      (c.access call).1.currentBatchSize ≤ target ∧ ∀ next, (c.access call).2 = some next → next.Within target := by
  cases call with
  | loadSize nowMs =>
    simp only [ScanConcurrencyController.access]
    split
    · exact ⟨htarget, hmin, hmax, by rintro _ ⟨⟩; trivial⟩
    · refine ⟨htarget, hmin, hmax, ?_⟩
      rintro _ ⟨⟩
      refine ⟨Nat.le_max_right _ _, ?_⟩
      simp only [portScanBatchMin] at hmin ⊢
      omega
  | exchange nowMs current newSize =>
    obtain ⟨hnew, hle⟩ := hcall
    simp only [ScanConcurrencyController.access]
    split
    · exact ⟨htarget, hnew, by simp only; omega, by rintro _ ⟨⟩; trivial⟩
    · exact ⟨htarget, hmin, hmax, by rintro _ ⟨⟩; trivial⟩
  | load =>
    refine ⟨htarget, hmin, hmax, fun next hnext => ?_⟩
    simp only [ScanConcurrencyController.access, Option.ite_none_right_eq_some, Option.some.injEq] at hnext
    obtain ⟨hlt, rfl⟩ := hnext
    exact ⟨Nat.le_trans hmin (Nat.le_of_lt hlt), by rw [← htarget]; exact Nat.min_le_right _ _⟩
  | store current newSize => exact ⟨htarget, hcall.1, hcall.2, by rintro _ ⟨⟩; trivial⟩
  | loadLast =>
    simp only [ScanConcurrencyController.access]
    split <;> exact ⟨htarget, hmin, hmax, by rintro _ ⟨⟩; trivial⟩
  | loadDegraded | count | clearStreak =>
    refine ⟨htarget, hmin, hmax, fun next hnext => ?_⟩
    simp only [ScanConcurrencyController.access, Option.ite_none_right_eq_some, Option.some.injEq] at hnext
    obtain ⟨-, rfl⟩ := hnext
    trivial
  | skipMark | skipReset | floorMark | mark | reset | stamp | clearDegraded =>
    exact ⟨htarget, hmin, hmax, by rintro _ ⟨⟩ <;> trivial⟩

theorem Bounded.step {target : Nat} {s t : Calls} {a : Action} (h : Bounded target s)
    (hstep : ScanConcurrencyController.step s a = some t) : Bounded target t := by
  cases a with
  | onFdExhaustion | onSuccess =>
    obtain rfl := Option.some.inj hstep
    refine ⟨h.targetBatchSize, h.minimum, h.maximum, fun call hcall => ?_⟩
    rcases List.mem_append.mp hcall with hcall | hcall
    · exact h.within call hcall
    · rw [List.mem_singleton.mp hcall]
      trivial
  | access i =>
    simp only [ScanConcurrencyController.step, Option.map_eq_some_iff] at hstep
    obtain ⟨call, hcall, rfl⟩ := hstep
    obtain ⟨htarget, hmin, hmax, hnext⟩ :=
      Bounded.access h.targetBatchSize h.minimum h.maximum (h.within call (List.mem_of_getElem? hcall))
    refine ⟨htarget, hmin, hmax, fun other hother => ?_⟩
    rcases Underway.mem_settle hother with ho | ho
    · exact h.within other ho
    · exact hnext other ho

/-- Whatever the calls do, the size stays between the minimum and the target. -/
theorem bounded_run {target : Nat} (htarget : portScanBatchMin ≤ target) (as : List Action) :
    Transition.Visits ScanConcurrencyController.step (Bounded target) (start target) as :=
  Transition.visits_of_inv (fun _ _ _ h hstep => h.step hstep) (fun _ h => h)
    ⟨rfl, htarget, Nat.le_refl _, nofun⟩ as

end ScanConcurrencyController

end Netvisor
