/-
The batch scanner, which keeps a number of scans in flight and starts the next
one whenever one is done, and the numbers that its callers pass. None of them is
zero: with zero it would end at once and scan nothing.
-/
import Mathlib.Data.List.Perm.Basic
import Mathlib.Data.List.Perm.Subperm
import Netvisor.Daemon.ScanController

namespace Netvisor

/-- Where the loop is. -/
inductive BatchPhase
  | seeding (left : Nat)
  /-- At `futures.next()`. -/
  | awaiting
  | refilling
  | finished
deriving DecidableEq, Repr

/-- The loop with its scans, each by its item, and the items whose scan is done. -/
structure BatchScan (T O : Type) where
  itemIter : List T
  futures : List T := []
  results : List O := []
  phase : BatchPhase
  cancelled : Bool := false
  scanned : List T := []
deriving DecidableEq, Repr

namespace BatchScan

inductive Action
  /-- The loop goes on, up to where it waits or looks at the token again. -/
  | advance
  /-- A scan is done, and next to be collected. -/
  | complete (i : Nat)
  | cancel
deriving DecidableEq, Repr

variable {T O : Type}

/-- The next item's scan is started, if there is one. -/
def push (s : BatchScan T O) (phase : BatchPhase) : BatchScan T O :=
  match s.itemIter with
  | item :: rest => { s with itemIter := rest, futures := s.futures ++ [item], phase }
  | [] => { s with phase := .awaiting }

def step (scanFn : T → Option O) (batchSize : Nat) (s : BatchScan T O) : Action → Option (BatchScan T O)
  | .advance =>
    match s.phase with
    | .seeding 0 => some { s with phase := .awaiting }
    | .seeding (left + 1) => some (if s.cancelled then { s with phase := .awaiting } else s.push (.seeding left))
    | .awaiting => if s.futures.isEmpty then some { s with phase := .finished } else none
    | .refilling =>
      some (if s.futures.length < batchSize ∧ s.cancelled = false then s.push .refilling
        else { s with phase := .awaiting })
    | .finished => none
  | .complete i =>
    match s.phase, s.futures[i]? with
    | .awaiting, some item =>
      let t := { s with futures := s.futures.eraseIdx i, scanned := s.scanned ++ [item] }
      some (if s.cancelled then { t with phase := .finished }
        else { t with results := t.results ++ (scanFn item).toList, phase := .refilling })
    | _, _ => none
  | .cancel => if s.cancelled then none else some { s with cancelled := true }

def start (items : List T) (batchSize : Nat) : BatchScan T O where
  itemIter := items
  phase := .seeding batchSize

/-! ## What a step does -/

/-- Every item is somewhere. -/
def items (s : BatchScan T O) : List T := s.scanned ++ (s.futures ++ s.itemIter)

theorem perm_items_push (s : BatchScan T O) (phase : BatchPhase) : (s.push phase).items.Perm s.items := by
  unfold push
  split
  · next item rest hiter => simp [items, hiter]
  · exact .refl _

theorem perm_items_collect {s : BatchScan T O} {i : Nat} {item : T} (hitem : s.futures[i]? = some item) :
    ((s.scanned ++ [item]) ++ (s.futures.eraseIdx i ++ s.itemIter)).Perm s.items := by
  obtain ⟨hi, hget⟩ := List.getElem?_eq_some_iff.mp hitem
  have herase : (item :: s.futures.eraseIdx i).Perm s.futures := by
    rw [← hget]
    exact List.getElem_cons_eraseIdx_perm hi
  rw [items, List.append_assoc]
  exact (herase.append_right s.itemIter).append_left s.scanned

/-- What is left for the loop to do. -/
def remaining (s : BatchScan T O) : Nat :=
  4 * s.itemIter.length + 2 * s.futures.length + (match s.phase with
    | .seeding _ => 3
    | .refilling => 2
    | .awaiting => 1
    | .finished => 0) + (if s.cancelled then 0 else 1)

theorem remaining_push {s : BatchScan T O} {phase : BatchPhase} (h : s.phase = .refilling ∧ phase = .refilling ∨
    ∃ left left', s.phase = .seeding left ∧ phase = .seeding left') : (s.push phase).remaining < s.remaining := by
  unfold push remaining
  rcases h with ⟨hs, rfl⟩ | ⟨left, left', hs, rfl⟩
  · rw [hs]
    cases s.itemIter <;> simp only [List.length_cons, List.length_append, List.length_nil] <;> omega
  · rw [hs]
    cases s.itemIter <;> simp only [List.length_cons, List.length_append, List.length_nil] <;> omega

theorem remaining_step {scanFn : T → Option O} {batchSize : Nat} (s : BatchScan T O) (a : Action) (t : BatchScan T O)
    (h : step scanFn batchSize s a = some t) : t.remaining < s.remaining := by
  cases a with
  | advance =>
    simp only [step] at h
    split at h
    · next hphase =>
      cases h
      simp only [remaining, hphase]
      omega
    · next left hphase =>
      obtain rfl := Option.some.inj h
      split
      · simp only [remaining, hphase]
        omega
      · exact remaining_push (.inr ⟨_, _, hphase, rfl⟩)
    · next hphase =>
      split at h
      · cases h
        simp only [remaining, hphase]
        omega
      · cases h
    · next hphase =>
      obtain rfl := Option.some.inj h
      split
      · exact remaining_push (.inl ⟨hphase, rfl⟩)
      · simp only [remaining, hphase]
        omega
    · cases h
  | complete i =>
    simp only [step] at h
    split at h
    · next item hphase hitem =>
      have hlt := (List.getElem?_eq_some_iff.mp hitem).1
      have hlen := List.length_eraseIdx_of_lt hlt
      obtain rfl := Option.some.inj h
      split <;> simp only [remaining, hphase] <;> omega
    · cases h
  | cancel =>
    simp only [step] at h
    split at h
    · cases h
    · next hcancelled =>
      cases h
      simp [remaining, hcancelled]

/-! ## The invariant -/

structure Inv (scanFn : T → Option O) (batchSize : Nat) (items : List T) (s : BatchScan T O) : Prop where
  items : s.items.Perm items
  inFlight : s.futures.length ≤ batchSize
  results : s.results.Sublist (s.scanned.filterMap scanFn)
  seeding : ∀ left, s.phase = .seeding left → s.futures.length + left = batchSize
  -- what holds as long as nobody cancels
  complete : s.cancelled = false → s.results = s.scanned.filterMap scanFn
  drained : s.cancelled = false → s.phase = .awaiting → s.futures = [] → s.itemIter = []
  finished : s.cancelled = false → s.phase = .finished → s.futures = [] ∧ s.itemIter = []

variable {scanFn : T → Option O} {batchSize : Nat} {items : List T} {s t : BatchScan T O}

theorem inv_start (scanFn : T → Option O) (batchSize : Nat) (items : List T) :
    Inv scanFn batchSize items (start items batchSize) where
  items := by simp [BatchScan.items, start]
  inFlight := Nat.zero_le _
  results := List.Sublist.refl _
  seeding left h := by
    cases h
    simp [start]
  complete _ := rfl
  drained _ h := by cases h
  finished _ h := by cases h

/-- The loop waits again. -/
theorem Inv.awaits (h : Inv scanFn batchSize items s)
    (hdrained : s.cancelled = false → s.futures = [] → s.itemIter = []) :
    Inv scanFn batchSize items { s with phase := .awaiting } where
  items := h.items
  inFlight := h.inFlight
  results := h.results
  seeding _ hphase := by cases hphase
  complete := h.complete
  drained hcancelled _ := hdrained hcancelled
  finished _ hphase := by cases hphase

theorem Inv.push (h : Inv scanFn batchSize items s) {phase : BatchPhase} (hroom : s.futures.length < batchSize)
    (hseeding : ∀ left, phase = .seeding left → s.futures.length + 1 + left = batchSize)
    (hphase : phase ≠ .awaiting ∧ phase ≠ .finished) : Inv scanFn batchSize items (s.push phase) := by
  have hitems := (perm_items_push s phase).trans h.items
  unfold BatchScan.push at hitems ⊢
  split at hitems
  · next item rest hiter =>
    have hlen : (s.futures ++ [item]).length = s.futures.length + 1 := by simp
    exact {
      items := hitems
      inFlight := by rw [hlen]; omega
      results := h.results
      seeding := fun left hleft => by rw [hlen]; exact hseeding left hleft
      complete := h.complete
      drained := fun _ hawaiting => absurd hawaiting hphase.1
      finished := fun _ hfinished => absurd hfinished hphase.2 }
  · next hiter => exact h.awaits fun _ _ => hiter

theorem Inv.collect (h : Inv scanFn batchSize items s) {i : Nat} {item : T} (hitem : s.futures[i]? = some item) :
    Inv scanFn batchSize items
      (if s.cancelled then
        { s with futures := s.futures.eraseIdx i, scanned := s.scanned ++ [item], phase := .finished }
      else
        { s with futures := s.futures.eraseIdx i, scanned := s.scanned ++ [item],
                 results := s.results ++ (scanFn item).toList, phase := .refilling }) := by
  have hitems := (perm_items_collect hitem).trans h.items
  have hlen : (s.futures.eraseIdx i).length ≤ batchSize := Nat.le_trans (List.length_eraseIdx_le ..) h.inFlight
  have hscanned : (s.scanned ++ [item]).filterMap scanFn = s.scanned.filterMap scanFn ++ (scanFn item).toList := by
    rw [List.filterMap_append]
    cases hout : scanFn item <;> simp [hout]
  split
  · next hcancelled =>
    have hnot : s.cancelled ≠ false := by simp [hcancelled]
    exact {
      items := hitems
      inFlight := hlen
      results := by rw [hscanned]; exact h.results.trans (List.sublist_append_left _ _)
      seeding := fun _ hphase => by cases hphase
      complete := fun hc => absurd hc hnot
      drained := fun hc => absurd hc hnot
      finished := fun hc => absurd hc hnot }
  · exact {
      items := hitems
      inFlight := hlen
      results := by rw [hscanned]; exact h.results.append (List.Sublist.refl _)
      seeding := fun _ hphase => by cases hphase
      complete := fun hc => by rw [hscanned, ← h.complete hc]
      drained := fun _ hphase => by cases hphase
      finished := fun _ hphase => by cases hphase }

theorem Inv.step (hpos : 0 < batchSize) (h : Inv scanFn batchSize items s) {a : Action}
    (hstep : BatchScan.step scanFn batchSize s a = some t) : Inv scanFn batchSize items t := by
  cases a with
  | advance =>
    simp only [BatchScan.step] at hstep
    split at hstep
    · next hphase =>
      cases hstep
      have hfull := h.seeding 0 hphase
      -- the seeds are all in flight
      refine h.awaits fun _ hempty => ?_
      simp [hempty] at hfull
      omega
    · next left hphase =>
      obtain rfl := Option.some.inj hstep
      have hleft := h.seeding (left + 1) hphase
      split
      · next hcancelled => exact h.awaits fun hc => absurd hc (by simp [hcancelled])
      · refine h.push (by omega) (fun left' hleft' => ?_) ⟨nofun, nofun⟩
        cases hleft'
        omega
    · next hphase =>
      split at hstep
      · next hempty =>
        cases hstep
        have hfutures : s.futures = [] := List.isEmpty_iff.mp hempty
        exact {
          items := h.items
          inFlight := h.inFlight
          results := h.results
          seeding := fun _ hp => by cases hp
          complete := h.complete
          drained := fun _ hp => by cases hp
          finished := fun hc _ => ⟨hfutures, h.drained hc hphase hfutures⟩ }
      · cases hstep
    · next hphase =>
      obtain rfl := Option.some.inj hstep
      split
      · next hroom => exact h.push hroom.1 nofun ⟨nofun, nofun⟩
      · next hroom =>
        refine h.awaits fun hc hempty => ?_
        simp [hempty, hc, hpos] at hroom
    · cases hstep
  | complete i =>
    simp only [BatchScan.step] at hstep
    split at hstep
    · next item hphase hitem =>
      obtain rfl := Option.some.inj hstep
      exact h.collect hitem
    · cases hstep
  | cancel =>
    simp only [BatchScan.step] at hstep
    split at hstep
    · cases hstep
    · cases hstep
      exact {
        items := h.items
        inFlight := h.inFlight
        results := h.results
        seeding := h.seeding
        complete := nofun
        drained := nofun
        finished := nofun }

/-- The loop goes on by itself, or a scan in flight is collected. -/
theorem exists_step (scanFn : T → Option O) (batchSize : Nat) (h : s.phase ≠ .finished) :
    ∃ a, a ≠ .cancel ∧ (BatchScan.step scanFn batchSize s a).isSome := by
  cases hphase : s.phase with
  | finished => exact absurd hphase h
  | seeding left => cases left <;> exact ⟨.advance, nofun, by simp [BatchScan.step, hphase]⟩
  | refilling => exact ⟨.advance, nofun, by simp [BatchScan.step, hphase]⟩
  | awaiting =>
    cases hfutures : s.futures with
    | nil => exact ⟨.advance, nofun, by simp [BatchScan.step, hphase, hfutures]⟩
    | cons item rest => exact ⟨.complete 0, nofun, by simp [BatchScan.step, hphase, hfutures]⟩

/-! ## Its callers -/

end BatchScan

/-- What `scan_tcp_ports` passes. -/
def tcpBatchSize (batchSize : Nat) (controller : ScanConcurrencyController) : Nat :=
  min batchSize controller.currentBatchSize

/-- What `scan_udp_ports` passes. -/
def udpBatchSize (batchSize : Nat) : Nat := min batchSize 10

/-- What `scan_endpoints` passes. -/
def endpointBatchSize (batchSize : Nat) : Nat := min (batchSize / 2) 50

/-- The configured size, as the network scan and the container scan clamp it. -/
def portScanBatchSize (config : Nat) : Nat := min (max config 16) 1000

/-- A controller at any time of its life. -/
def Controls (target : Nat) (c : ScanConcurrencyController) : Prop :=
  ∃ as s, Transition.run ScanConcurrencyController.step (ScanConcurrencyController.start target) as = some s ∧
    s.controller = c

/-- The sizes that are passed: a deep scan takes the smaller of the configured
size and that of the controller when it begins. -/
inductive Passed (config : Nat) : Nat → Prop
  | tcp {c c' : ScanConcurrencyController} (hbegin : Controls (portScanBatchSize config) c)
      (hscan : Controls (portScanBatchSize config) c') :
      Passed config (tcpBatchSize (min (portScanBatchSize config) c.currentBatchSize) c')
  | udp {c : ScanConcurrencyController} (hbegin : Controls (portScanBatchSize config) c) :
      Passed config (udpBatchSize (min (portScanBatchSize config) c.currentBatchSize))
  | endpoints {c : ScanConcurrencyController} (hbegin : Controls (portScanBatchSize config) c) :
      Passed config (endpointBatchSize (min (portScanBatchSize config) c.currentBatchSize))
  | containerEndpoints : Passed config (endpointBatchSize (portScanBatchSize config))

theorem min_le_portScanBatchSize (config : Nat) : portScanBatchMin ≤ portScanBatchSize config := by
  unfold portScanBatchMin portScanBatchSize
  omega

theorem Controls.minimum {target : Nat} {c : ScanConcurrencyController} (htarget : portScanBatchMin ≤ target)
    (h : Controls target c) : portScanBatchMin ≤ c.currentBatchSize := by
  obtain ⟨as, s, hrun, rfl⟩ := h
  have hstart : ScanConcurrencyController.Bounded target (ScanConcurrencyController.start target) :=
    ⟨rfl, htarget, Nat.le_refl _, nofun⟩
  exact (Transition.run_inv (fun _ _ _ h hstep => h.step hstep) hstart hrun).minimum

theorem Passed.pos {config batchSize : Nat} (h : Passed config batchSize) : 0 < batchSize := by
  have hsize := min_le_portScanBatchSize config
  cases h with
  | tcp hbegin hscan =>
    have hc := hbegin.minimum hsize
    have hc' := hscan.minimum hsize
    simp only [portScanBatchMin, tcpBatchSize] at *
    omega
  | udp hbegin =>
    have hc := hbegin.minimum hsize
    simp only [portScanBatchMin, udpBatchSize] at *
    omega
  | endpoints hbegin =>
    have hc := hbegin.minimum hsize
    simp only [portScanBatchMin, endpointBatchSize] at *
    omega
  | containerEndpoints =>
    simp only [portScanBatchMin, endpointBatchSize] at *
    omega

/-- **In every state of a batch scan with a size that is passed, at most that many
scans are in flight. It goes on until it has ended, which it does after boundedly
many steps; if nobody has cancelled, every item is then scanned exactly once and
the results are the outputs of all; in any case they are among these.** -/
theorem batchScan_exact {T O : Type} {config batchSize : Nat} (hsize : Passed config batchSize) (items : List T)
    (scanFn : T → Option O) {as : List BatchScan.Action} {s : BatchScan T O}
    (hrun : Transition.run (BatchScan.step scanFn batchSize) (BatchScan.start items batchSize) as = some s) :
    s.futures.length ≤ batchSize ∧
      as.length ≤ 4 * items.length + 4 ∧
      (s.phase ≠ .finished → ∃ a, a ≠ .cancel ∧ (BatchScan.step scanFn batchSize s a).isSome) ∧
      (s.phase = .finished → s.cancelled = false → s.scanned.Perm items ∧ s.results.Perm (items.filterMap scanFn)) ∧
      s.results.Subperm (items.filterMap scanFn) := by
  have hinv := Transition.run_inv (fun _ _ _ h hstep => BatchScan.Inv.step hsize.pos h hstep)
    (BatchScan.inv_start scanFn batchSize items) hrun
  refine ⟨hinv.inFlight, ?_, BatchScan.exists_step scanFn batchSize, fun hfinished hcancelled => ?_, ?_⟩
  · have hlen := Transition.length_add_le_of_decreases BatchScan.remaining_step hrun
    simp only [BatchScan.remaining, BatchScan.start, List.length_nil] at hlen
    simp at hlen
    omega
  · obtain ⟨hfutures, hiter⟩ := hinv.finished hcancelled hfinished
    have hscanned : s.scanned.Perm items := by
      have hitems := hinv.items
      rw [BatchScan.items, hfutures, hiter] at hitems
      simpa using hitems
    exact ⟨hscanned, by rw [hinv.complete hcancelled]; exact hscanned.filterMap scanFn⟩
  · obtain ⟨l, hl, hsub⟩ : s.scanned.Subperm items := (List.sublist_append_left _ _).subperm.trans hinv.items.subperm
    exact hinv.results.subperm.trans ⟨l.filterMap scanFn, hl.filterMap scanFn, hsub.filterMap scanFn⟩

/-- Three ports, of which one is open. -/
def threePorts (port : Nat) : Option Nat := if port = 22 then some port else none

/-- The second and the third are done before the first. -/
def threePortsRun : List BatchScan.Action :=
  List.replicate 4 .advance ++ [.complete 1, .advance, .complete 1, .advance, .complete 0, .advance, .advance]

def threePortsEnd : BatchScan Nat Nat where
  itemIter := []
  results := [22]
  phase := .finished
  scanned := [22, 80, 21]

theorem batchScan_threePorts :
    Transition.run (BatchScan.step threePorts (endpointBatchSize (portScanBatchSize 0)))
        (BatchScan.start [21, 22, 80] (endpointBatchSize (portScanBatchSize 0))) threePortsRun = some threePortsEnd ∧
      threePortsEnd.scanned.Perm [21, 22, 80] ∧ threePortsEnd.results.Perm ([21, 22, 80].filterMap threePorts) := by
  have hrun : Transition.run (BatchScan.step threePorts (endpointBatchSize (portScanBatchSize 0)))
      (BatchScan.start [21, 22, 80] (endpointBatchSize (portScanBatchSize 0))) threePortsRun =
      some threePortsEnd := by
    decide
  exact ⟨hrun, (batchScan_exact (@Passed.containerEndpoints 0) [21, 22, 80] threePorts hrun).2.2.2.1 rfl rfl⟩

end Netvisor
