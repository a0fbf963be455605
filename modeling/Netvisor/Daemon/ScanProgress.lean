/-
The progress of a network scan, from the batches that the deep scans have
completed and those announced for them.

A deep scan is announced with as many batches as the configured size gives. It
completes as many as the controller's size gives, which is smaller once file
descriptors have run out. Then it completes more than were announced, and the
sum of the phases passes 100 and the range of `u8`.
-/
import Mathlib.Data.Rat.Floor
import Mathlib.Tactic.Linarith
import Netvisor.Daemon.Pipeline

namespace Netvisor

/-- The rounding of `f64`. It keeps the order, and a small integer. -/
class F64Rounding where
  f64 : ℚ → ℚ
  f64_mono : ∀ {x y}, x ≤ y → f64 x ≤ f64 y
  f64_natCast : ∀ {n : Nat}, n ≤ 2 ^ 53 → f64 n = n

/-- A float `as u8`. -/
def asU8 (x : ℚ) : Nat := min ⌊x⌋₊ 255

/-- The sum of two `u8`, unless it overflows. -/
def addU8 (a b : Nat) : Option Nat := if a + b ≤ 255 then some (a + b) else none

def progressArpPhase : Nat := 30

def progressDeepScanPhase : Nat := 65

def progressGracePhase : Nat := 5

section Progress

variable [F64Rounding]

open F64Rounding

/-- `as_secs_f64` of a duration in nanoseconds. -/
def asSecsF64 (nanos : Nat) : ℚ :=
  f64 (f64 (nanos / 1000000000 : Nat) + f64 (f64 (nanos % 1000000000 : Nat) / f64 1000000000))

/-- The share of a phase that has gone by, in `u8`. -/
def ofPhase (share : ℚ) (phase : Nat) : Nat := asU8 (f64 (share * f64 phase))

/-- Durations are in nanoseconds. -/
def calculateProgress (channelClosed hasPendingScans : Bool) (arpElapsed estimatedArpDuration graceElapsed : Nat)
    (totalBatches batchesCompleted : Nat) : Option Nat :=
  if channelClosed = false then
    let arpProgress : ℚ :=
      if 0 < estimatedArpDuration / 1000000000 then
        min (f64 (asSecsF64 arpElapsed / asSecsF64 estimatedArpDuration)) 1
      else 1
    some (ofPhase arpProgress progressArpPhase)
  else if 0 < totalBatches ∧ (batchesCompleted < totalBatches ∨ hasPendingScans) then
    addU8 progressArpPhase (ofPhase (f64 (f64 batchesCompleted / f64 totalBatches)) progressDeepScanPhase)
  else if hasPendingScans then some progressArpPhase
  else
    let graceProgress : ℚ := min (f64 (asSecsF64 graceElapsed / asSecsF64 (lateArrivalGracePeriod * 1000000))) 1
    (addU8 progressArpPhase progressDeepScanPhase).bind fun progress =>
      addU8 progress (ofPhase graceProgress progressGracePhase)

theorem f64_cast_mono {m n : Nat} (h : m ≤ n) : f64 (m : ℚ) ≤ f64 (n : ℚ) := f64_mono (by exact_mod_cast h)

/-- A share of at most one is at most the phase. -/
theorem ofPhase_le {share : ℚ} (h : share ≤ 1) (phase : Nat) (hphase : phase ≤ 255) :
    ofPhase share phase ≤ phase := by
  have hexact : f64 (phase : ℚ) = phase := f64_natCast (by omega)
  have hmul : share * (phase : ℚ) ≤ phase := by
    have hnonneg : (0 : ℚ) ≤ phase := Nat.cast_nonneg phase
    nlinarith
  have hround : f64 (share * f64 phase) ≤ phase := by
    rw [hexact]
    calc f64 (share * phase) ≤ f64 phase := f64_mono hmul
      _ = phase := hexact
  refine Nat.le_trans (Nat.min_le_left _ _) ?_
  calc ⌊f64 (share * f64 phase)⌋₊ ≤ ⌊(phase : ℚ)⌋₊ := Nat.floor_le_floor hround
    _ = phase := Nat.floor_natCast phase

/-- The ratio of two counts. -/
theorem ratio_le_one {completed total : Nat} (hpos : 0 < total) (h : completed ≤ total) :
    f64 (f64 (completed : ℚ) / f64 (total : ℚ)) ≤ 1 := by
  have hone : f64 (1 : ℚ) = 1 := by exact_mod_cast f64_natCast (n := 1) (by omega)
  have htotal : 1 ≤ f64 (total : ℚ) := by
    rw [← hone]
    exact f64_mono (by exact_mod_cast hpos)
  have hratio : f64 (completed : ℚ) / f64 (total : ℚ) ≤ 1 := by
    rw [div_le_one (by linarith)]
    exact f64_cast_mono h
  calc f64 (f64 (completed : ℚ) / f64 (total : ℚ)) ≤ f64 1 := f64_mono hratio
    _ = 1 := hone

/-- With no more batches completed than announced, the progress is a percentage. -/
theorem calculateProgress_le {completed total : Nat} (h : completed ≤ total) (channelClosed hasPendingScans : Bool)
    (arpElapsed estimatedArpDuration graceElapsed : Nat) :
    ∃ p ≤ 100, calculateProgress channelClosed hasPendingScans arpElapsed estimatedArpDuration graceElapsed total
      completed = some p := by
  unfold calculateProgress
  split
  · have harp : (if 0 < estimatedArpDuration / 1000000000 then
        min (f64 (asSecsF64 arpElapsed / asSecsF64 estimatedArpDuration)) 1 else 1 : ℚ) ≤ 1 := by
      split
      · exact min_le_right _ _
      · exact le_refl _
    have hle := ofPhase_le harp progressArpPhase (by decide)
    exact ⟨_, Nat.le_trans hle (by decide), rfl⟩
  · split
    · next hcond =>
      have hle := ofPhase_le (ratio_le_one hcond.1 h) progressDeepScanPhase (by decide)
      simp only [progressDeepScanPhase, progressArpPhase] at hle ⊢
      exact ⟨_, by omega, if_pos (by omega)⟩
    · split
      · exact ⟨progressArpPhase, by decide, rfl⟩
      · have hle := ofPhase_le (min_le_right
          (f64 (asSecsF64 graceElapsed / asSecsF64 (lateArrivalGracePeriod * 1000000))) 1)
          progressGracePhase (by decide)
        have hphases : addU8 progressArpPhase progressDeepScanPhase = some 95 := rfl
        simp only [hphases, Option.bind_some, progressGracePhase] at hle ⊢
        exact ⟨_, by omega, if_pos (by omega)⟩

end Progress

/-! ## The batches of the pipeline -/

/-- No more batches are completed than announced, and whatever the times are the
progress is a percentage. -/
def Pipeline.ProgressOk [F64Rounding] (s : Pipeline) : Prop :=
  s.batchesCompleted ≤ s.totalBatches ∧ ∀ arpElapsed estimatedArpDuration graceElapsed, ∃ p ≤ 100,
    calculateProgress s.channelClosed s.hasPending arpElapsed estimatedArpDuration graceElapsed s.totalBatches
      s.batchesCompleted = some p

/-- If the deep scan begins to scan ports now, it does so in no more chunks than
were announced for it. -/
def ScanPhase.Fits (portScanBatchSize controllerSize responsivePorts : Nat) (mac : Bool) : ScanPhase → Prop
  | starting => mac → chunkCount 65535 (min portScanBatchSize controllerSize) ≤ batchesPerHost portScanBatchSize
  | responsiveness effectiveBatchSize =>
    responsivePorts ≠ 0 →
      chunkCount (65535 - responsivePorts) effectiveBatchSize ≤ batchesPerHost portScanBatchSize
  | scanning _ | finished _ => True

instance (portScanBatchSize controllerSize responsivePorts : Nat) (mac : Bool) (phase : ScanPhase) :
    Decidable (phase.Fits portScanBatchSize controllerSize responsivePorts mac) := by
  cases phase <;> unfold ScanPhase.Fits <;> infer_instance

def Pipeline.Meets (effectiveBatchSize : Nat) (s : Pipeline) : Action → Prop
  | .work i responsivePorts => ∀ scan ∈ s.pendingScans[i]?,
    scan.phase.Fits effectiveBatchSize s.controller.controller.currentBatchSize responsivePorts scan.host.mac.isSome
  | _ => True

instance (effectiveBatchSize : Nat) (s : Pipeline) (a : Pipeline.Action) :
    Decidable (s.Meets effectiveBatchSize a) := by
  cases a <;> unfold Pipeline.Meets <;> infer_instance

/-- The batches announced for a host when it is received. -/
def ResponsiveHost.owed (effectiveBatchSize : Nat) (host : ResponsiveHost) : Nat :=
  if host.mac.isSome then batchesPerHost effectiveBatchSize else 0

/-- The batches announced for a deep scan that it may yet complete. -/
def HostScan.owed (effectiveBatchSize : Nat) (scan : HostScan) : Nat :=
  match scan.phase with
  | .starting => scan.host.owed effectiveBatchSize
  | .scanning chunks => chunks
  | .responsiveness _ | .finished _ => 0

theorem HostScan.owed_work {effectiveBatchSize controllerSize responsivePorts total completed : Nat}
    {cancelled : Bool}
    {scan : HostScan} {phase : ScanPhase}
    (hfits : scan.phase.Fits effectiveBatchSize controllerSize responsivePorts scan.host.mac.isSome)
    (h : scan.phase.work effectiveBatchSize controllerSize responsivePorts scan.host.mac.isSome cancelled =
      some (phase, total, completed)) :
    completed + HostScan.owed effectiveBatchSize { scan with phase } ≤ total + scan.owed effectiveBatchSize := by
  obtain ⟨host, before⟩ := scan
  cases before with
  | starting =>
    simp only [ScanPhase.work] at h
    split at h
    · cases h
      simp [owed]
    · split at h
      · next hmac =>
        cases h
        simpa [owed, ResponsiveHost.owed, hmac] using hfits hmac
      · cases h
        simp [owed]
  | responsiveness size =>
    simp only [ScanPhase.work] at h
    split at h
    · cases h
      simp [owed]
    · next hsome =>
      cases h
      simpa [owed] using hfits hsome
  | scanning chunks =>
    cases chunks with
    | zero =>
      cases h
      simp [owed]
    | succ chunks =>
      simp only [ScanPhase.work] at h
      split at h <;> cases h <;> simp only [owed] <;> omega
  | finished ok => cases h

namespace Pipeline

variable {effectiveBatchSize : Nat} {s t : Pipeline}

def owed (effectiveBatchSize : Nat) (s : Pipeline) : Nat :=
  (s.pendingScans.map (HostScan.owed effectiveBatchSize)).sum +
    (s.pendingHosts.map (ResponsiveHost.owed effectiveBatchSize)).sum

theorem owed_accept (s : Pipeline) (host : ResponsiveHost) :
    (s.accept host).owed effectiveBatchSize = s.owed effectiveBatchSize + host.owed effectiveBatchSize := by
  unfold accept
  split
  · simp only [owed, List.map_append, List.map_cons, List.map_nil, List.sum_append, List.sum_cons, List.sum_nil,
      HostScan.owed]
    omega
  · simp only [owed, List.map_cons, List.sum_cons]
    omega

theorem owed_startPending (s : Pipeline) :
    s.startPending.owed effectiveBatchSize = s.owed effectiveBatchSize := by
  unfold startPending
  split
  · next host rest hpending =>
    simp only [owed, hpending, List.map_append, List.map_cons, List.map_nil, List.sum_append, List.sum_cons,
      List.sum_nil, HostScan.owed]
    omega
  · rfl

@[simp] theorem accept_batchesCompleted (s : Pipeline) (host : ResponsiveHost) :
    (s.accept host).batchesCompleted = s.batchesCompleted := by unfold accept; split <;> rfl
@[simp] theorem accept_totalBatches (s : Pipeline) (host : ResponsiveHost) :
    (s.accept host).totalBatches = s.totalBatches := by unfold accept; split <;> rfl
@[simp] theorem startPending_batchesCompleted (s : Pipeline) :
    s.startPending.batchesCompleted = s.batchesCompleted := by unfold startPending; split <;> rfl
@[simp] theorem startPending_totalBatches (s : Pipeline) :
    s.startPending.totalBatches = s.totalBatches := by unfold startPending; split <;> rfl

/-- What was announced covers what is completed and what may yet be. -/
def Covered (effectiveBatchSize : Nat) (s : Pipeline) : Prop :=
  s.batchesCompleted + s.owed effectiveBatchSize ≤ s.totalBatches

theorem Covered.step {a : Action} (h : s.Covered effectiveBatchSize) (hok : s.Meets effectiveBatchSize a)
    (hstep : Pipeline.step effectiveBatchSize s a = some t) : t.Covered effectiveBatchSize := by
  cases a with
  | work i responsivePorts =>
    obtain ⟨scan, phase, total, completed, -, hscan, hwork, rfl⟩ := step_work hstep
    have howed := HostScan.owed_work (hok scan hscan) hwork
    have hsum := sum_map_set (f := HostScan.owed effectiveBatchSize) hscan { scan with phase }
    simp only [Covered, owed] at h hsum ⊢
    omega
  | receive newConcurrency =>
    obtain ⟨-, -, ⟨host, rest, -, rfl⟩ | ⟨-, -, rfl⟩⟩ := step_receive hstep
    · rw [Covered, owed_accept, accept_batchesCompleted, accept_totalBatches]
      simp only [Covered, owed, ResponsiveHost.owed] at h ⊢
      omega
    · exact h
  | next i found =>
    obtain ⟨scan, ok, -, hscan, -, rfl⟩ := step_next hstep
    have hsum := sum_map_eraseIdx (f := HostScan.owed effectiveBatchSize) hscan
    rw [Covered, owed_startPending, startPending_batchesCompleted, startPending_totalBatches]
    simp only [Covered, owed] at h ⊢
    omega
  | controller a =>
    simp only [Pipeline.step, Option.map_eq_some_iff] at hstep
    obtain ⟨controller, -, rfl⟩ := hstep
    exact h
  | elapse | cancel =>
    cases hstep
    exact h
  | announce | producersEnd | tick | check =>
    simp only [Pipeline.step] at hstep
    split at hstep
    · cases hstep
      exact h
    · cases hstep

theorem Covered.progressOk [F64Rounding] (h : s.Covered effectiveBatchSize) : s.ProgressOk := by
  have hle : s.batchesCompleted ≤ s.totalBatches := Nat.le_trans (Nat.le_add_right _ _) h
  exact ⟨hle, calculateProgress_le hle _ _⟩

/-- **In a run where no deep scan takes more chunks than were announced for it,
the batches completed never exceed those announced and the progress is a
percentage at all times.** -/
theorem progressOk_of_meets [F64Rounding] (deepScanConcurrency effectiveBatchSize : Nat) {as : List Action}
    (hmeets : Transition.Along (step effectiveBatchSize) (Meets effectiveBatchSize)
      (start deepScanConcurrency effectiveBatchSize) as) :
    Transition.Visits (step effectiveBatchSize) ProgressOk (start deepScanConcurrency effectiveBatchSize) as :=
  Transition.Along.visits (I := Covered effectiveBatchSize) (fun _ _ _ h hok hstep => h.step hok hstep)
    (fun _ h => h.progressOk) (Nat.le_refl _) hmeets

end Pipeline

/-- With quotients that are exact. -/
@[reducible] def F64Rounding.exact : F64Rounding where
  f64 := id
  f64_mono := id
  f64_natCast _ := rfl

theorem progressOk_twoHosts :
    let _ : F64Rounding := .exact
    Transition.Visits (Pipeline.step 1000) Pipeline.ProgressOk (Pipeline.start 1 1000) twoHostsRun := by
  intro _
  exact Pipeline.progressOk_of_meets 1 1000 (by decide +kernel)

/-- File descriptors run out twice. -/
def halvedTwice : List ScanConcurrencyController.Action :=
  .onFdExhaustion 1000 :: List.replicate 6 (.access 0) ++ .onFdExhaustion 2000 :: List.replicate 6 (.access 0)

/-- The size is halved twice, and then a host is scanned. -/
def halvedTwiceRun : List Pipeline.Action :=
  halvedTwice.map .controller ++
  [.announce ⟨.v4 0xC0A80101, 1, some 0x0A0B0C0D0E0F⟩, .producersEnd, .receive none, .check, .receive none, .check] ++
  List.replicate 231 (.work 0 0)

/-- More than three times the batches announced are completed, and the sum of the phases overflows. -/
theorem halvedTwiceRun_not_progressOk :
    let _ : F64Rounding := .exact
    ¬Transition.Visits (Pipeline.step 1000) Pipeline.ProgressOk (Pipeline.start 1 1000) halvedTwiceRun ∧
      calculateProgress true true 0 0 0 66 230 = none := by
  intro _
  refine ⟨fun h => ?_, by decide +kernel⟩
  have hcounts : (Transition.run (Pipeline.step 1000) (Pipeline.start 1 1000) halvedTwiceRun).map
      (fun s => (s.batchesCompleted, s.totalBatches)) = some (230, 66) := by decide +kernel
  obtain ⟨s, hrun, hs⟩ := Option.map_eq_some_iff.mp hcounts
  have hle := (h.last hrun).1
  simp only [Prod.mk.injEq] at hs
  omega

end Netvisor
