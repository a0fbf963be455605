/-
The pipeline of a network scan: hosts that are found come in through a channel
and are deep scanned, as many at once as there is room for; the others wait.

The loop may end at two places, at the ticker and after any iteration, and only
when the channel has closed and nothing is waiting or under way. A host that
waits is started when a scan is done, so one that waits always has a scan under
way before it; that is what the end depends on.
-/
import Mathlib.Data.List.Perm.Basic
import Netvisor.Entities
import Netvisor.Daemon.ScanController

namespace Netvisor

/-- In milliseconds, as every time here. -/
def lateArrivalGracePeriod : Nat := 30000

/-- How many hosts the channel holds. -/
def hostChannelCapacity : Nat := 256

/-- A host from the channel. It has a MAC address if ARP has found it. -/
structure ResponsiveHost where
  ip : IpAddr
  subnetId : Uuid
  mac : Option MacAddress
deriving DecidableEq, Repr

/-- Where a deep scan is. -/
inductive ScanPhase
  | starting
  | responsiveness (effectiveBatchSize : Nat)
  /-- The chunks of ports that are left. -/
  | scanning (chunks : Nat)
  /-- A host may have come of it if it is `ok`. -/
  | finished (ok : Bool)
deriving DecidableEq, Repr

structure HostScan where
  host : ResponsiveHost
  phase : ScanPhase := .starting
deriving DecidableEq, Repr

/-- Where the loop is: at its `select!`, or after a branch of it. -/
inductive LoopPhase
  | selecting
  | checking
  | ended
  | failed
deriving DecidableEq, Repr

structure Pipeline where
  announced : List ResponsiveHost := []
  channel : List ResponsiveHost := []
  /-- A sender of the channel is still there. -/
  producing : Bool := true
  phase : LoopPhase := .selecting
  channelClosed : Bool := false
  deepScanConcurrency : Nat
  pendingScans : List HostScan := []
  /-- The last one first. -/
  pendingHosts : List ResponsiveHost := []
  hostsScanned : List ResponsiveHost := []
  results : List ResponsiveHost := []
  totalBatches : Nat := 0
  batchesCompleted : Nat := 0
  controller : ScanConcurrencyController.Calls
  clock : Nat := 0
  lastActivity : Nat := 0
  cancelled : Bool := false
deriving DecidableEq, Repr

section Sums

variable {α : Type} {f : α → Nat} {l : List α} {i : Nat} {a : α}

theorem sum_map_eraseIdx (h : l[i]? = some a) : ((l.eraseIdx i).map f).sum + f a = (l.map f).sum := by
  obtain ⟨hi, hget⟩ := List.getElem?_eq_some_iff.mp h
  have herase := ((List.getElem_cons_eraseIdx_perm hi).map f).sum_nat
  rw [hget, List.map_cons, List.sum_cons] at herase
  omega

theorem sum_map_set (h : l[i]? = some a) (b : α) : ((l.set i b).map f).sum + f a = (l.map f).sum + f b := by
  obtain ⟨hi, -⟩ := List.getElem?_eq_some_iff.mp h
  have hset := ((List.set_perm_cons_eraseIdx hi b).map f).sum_nat
  have herase := sum_map_eraseIdx (f := f) h
  rw [List.map_cons, List.sum_cons] at hset
  omega

end Sums

/-- The number of chunks of so many ports. -/
def chunkCount (ports size : Nat) : Nat := (ports + size - 1) / size

def batchesPerHost (effectiveBatchSize : Nat) : Nat := chunkCount 65535 effectiveBatchSize

/-- What a deep scan does next, with what it adds to the batches in total and to
those completed. -/
def ScanPhase.work (portScanBatchSize controllerSize responsivePorts : Nat) (mac cancelled : Bool) :
    ScanPhase → Option (ScanPhase × Nat × Nat)
  | starting =>
    let effectiveBatchSize := min portScanBatchSize controllerSize
    if cancelled then some (finished false, 0, 0)
    else if mac then some (scanning (chunkCount 65535 effectiveBatchSize), 0, 0)
    else some (responsiveness effectiveBatchSize, 0, 0)
  | responsiveness effectiveBatchSize =>
    if responsivePorts = 0 then some (finished false, 0, 0)
    else some (scanning (chunkCount (65535 - responsivePorts) effectiveBatchSize),
      batchesPerHost portScanBatchSize, 0)
  | scanning 0 => some (finished true, 0, 0)
  | scanning (chunks + 1) => if cancelled then some (finished false, 0, 0) else some (scanning chunks, 0, 1)
  | finished _ => none

theorem chunkCount_le (ports size : Nat) : chunkCount ports size ≤ ports := by
  unfold chunkCount
  cases size with
  | zero => simp
  | succ size =>
    cases ports with
    | zero => exact Nat.le_of_eq (Nat.div_eq_of_lt (by omega))
    | succ ports =>
      refine Nat.div_le_of_le_mul ?_
      have hsize : size ≤ size * (ports + 1) := Nat.le_mul_of_pos_right size (Nat.succ_pos ports)
      rw [Nat.succ_mul]
      omega

/-- What is left of a deep scan, in steps. -/
def ScanPhase.left : ScanPhase → Nat
  | starting => 65539
  | responsiveness _ => 65538
  | scanning chunks => chunks + 2
  | finished _ => 1

theorem ScanPhase.left_work {portScanBatchSize controllerSize responsivePorts total completed : Nat}
    {mac cancelled : Bool} {phase phase' : ScanPhase}
    (h : phase.work portScanBatchSize controllerSize responsivePorts mac cancelled = some (phase', total,
      completed)) :
    phase'.left < phase.left := by
  have hall := chunkCount_le 65535 (min portScanBatchSize controllerSize)
  cases phase with
  | starting =>
    simp only [work] at h
    split at h
    · cases h
      simp [left]
    · split at h <;> cases h <;> simp only [left] <;> omega
  | responsiveness effectiveBatchSize =>
    have hsome := chunkCount_le (65535 - responsivePorts) effectiveBatchSize
    simp only [work] at h
    split at h <;> cases h <;> simp only [left] <;> omega
  | scanning chunks =>
    cases chunks with
    | zero =>
      cases h
      simp [left]
    | succ chunks =>
      simp only [work] at h
      split at h <;> cases h <;> simp only [left] <;> omega
  | finished ok => cases h

namespace Pipeline

inductive Action
  /-- A host is found. -/
  | announce (host : ResponsiveHost)
  | producersEnd
  | elapse (ms : Nat)
  | cancel
  | controller (a : ScanConcurrencyController.Action)
  /-- A deep scan goes on; `responsivePorts` is what it finds if it looks whether
  the host responds. -/
  | work (i responsivePorts : Nat)
  /-- A host is received, or the end of the channel; `newConcurrency` is the
  number of scans for which there is room then. -/
  | receive (newConcurrency : Option Nat)
  /-- A deep scan is done, with a host or without one. -/
  | next (i : Nat) (found : Bool)
  | tick
  /-- The end of an iteration. -/
  | check
deriving DecidableEq, Repr

/-- A deep scan is started, or put off. -/
def accept (s : Pipeline) (host : ResponsiveHost) : Pipeline :=
  if s.pendingScans.length < s.deepScanConcurrency then { s with pendingScans := s.pendingScans ++ [{ host }] }
  else { s with pendingHosts := host :: s.pendingHosts }

/-- The host put off last is started. -/
def startPending (s : Pipeline) : Pipeline :=
  match s.pendingHosts with
  | host :: rest => { s with pendingHosts := rest, pendingScans := s.pendingScans ++ [{ host }] }
  | [] => s

def hasPending (s : Pipeline) : Bool := !s.pendingScans.isEmpty || !s.pendingHosts.isEmpty

/-- The loop may end. -/
def expired (s : Pipeline) : Bool :=
  s.channelClosed && !s.hasPending && lateArrivalGracePeriod ≤ s.clock - s.lastActivity

def step (effectiveBatchSize : Nat) (s : Pipeline) : Action → Option Pipeline
  | .announce host =>
    if s.producing ∧ s.channel.length < hostChannelCapacity then
      some { s with announced := s.announced ++ [host], channel := s.channel ++ [host] }
    else none
  | .producersEnd => if s.producing then some { s with producing := false } else none
  | .elapse ms => some { s with clock := s.clock + ms }
  | .cancel => some { s with cancelled := true }
  | .controller a => (ScanConcurrencyController.step s.controller a).map fun controller => { s with controller }
  | .work i responsivePorts =>
    if s.phase = .selecting then
      s.pendingScans[i]?.bind fun scan =>
        (scan.phase.work effectiveBatchSize s.controller.controller.currentBatchSize responsivePorts scan.host.mac.isSome
          s.cancelled).map fun (phase, total, completed) =>
            { s with
              pendingScans := s.pendingScans.set i { scan with phase }
              totalBatches := s.totalBatches + total
              batchesCompleted := s.batchesCompleted + completed }
    else none
  | .receive newConcurrency =>
    if s.phase = .selecting ∧ s.channelClosed = false then
      match s.channel with
      | host :: rest =>
        some (accept
          { s with
            channel := rest
            totalBatches := s.totalBatches + (if host.mac.isSome then batchesPerHost effectiveBatchSize else 0)
            lastActivity := s.clock
            phase := .checking } host)
      | [] =>
        if s.producing then none
        else some
          { s with
            channelClosed := true
            deepScanConcurrency := max s.deepScanConcurrency (newConcurrency.getD 0)
            phase := .checking }
    else none
  | .next i found =>
    if s.phase = .selecting then
      s.pendingScans[i]?.bind fun scan =>
        match scan.phase with
        | .finished ok =>
          some (startPending
            { s with
              pendingScans := s.pendingScans.eraseIdx i
              hostsScanned := s.hostsScanned ++ [scan.host]
              results := if ok && found then s.results ++ [scan.host] else s.results
              lastActivity := s.clock
              phase := .checking })
        | _ => none
    else none
  | .tick =>
    if s.phase = .selecting then some { s with phase := if s.expired then .ended else .checking } else none
  | .check =>
    if s.phase = .checking then
      some { s with phase := if s.cancelled then .failed else if s.expired then .ended else .selecting }
    else none

def start (deepScanConcurrency effectiveBatchSize : Nat) : Pipeline where
  deepScanConcurrency
  controller := ScanConcurrencyController.start effectiveBatchSize

/-! ## What a step can do -/

section Steps

variable {effectiveBatchSize i responsivePorts : Nat} {s t : Pipeline} {newConcurrency : Option Nat} {found : Bool}

theorem step_work (h : step effectiveBatchSize s (.work i responsivePorts) = some t) :
    ∃ scan phase total completed, s.phase = .selecting ∧ s.pendingScans[i]? = some scan ∧
      scan.phase.work effectiveBatchSize s.controller.controller.currentBatchSize responsivePorts scan.host.mac.isSome
        s.cancelled = some (phase, total, completed) ∧
      t = { s with
        pendingScans := s.pendingScans.set i { scan with phase }
        totalBatches := s.totalBatches + total
        batchesCompleted := s.batchesCompleted + completed } := by
  simp only [step] at h
  split at h
  · next hphase =>
    simp only [Option.bind_eq_some_iff, Option.map_eq_some_iff] at h
    obtain ⟨scan, hscan, ⟨phase, total, completed⟩, hwork, rfl⟩ := h
    exact ⟨scan, phase, total, completed, hphase, hscan, hwork, rfl⟩
  · cases h

theorem step_receive (h : step effectiveBatchSize s (.receive newConcurrency) = some t) :
    s.phase = .selecting ∧ s.channelClosed = false ∧
      ((∃ host rest, s.channel = host :: rest ∧
        t = accept
          { s with
            channel := rest
            totalBatches := s.totalBatches + (if host.mac.isSome then batchesPerHost effectiveBatchSize else 0)
            lastActivity := s.clock
            phase := .checking } host) ∨
      s.channel = [] ∧ s.producing = false ∧
        t = { s with
          channelClosed := true
          deepScanConcurrency := max s.deepScanConcurrency (newConcurrency.getD 0)
          phase := .checking }) := by
  simp only [step] at h
  split at h
  · next hphase =>
    refine ⟨hphase.1, hphase.2, ?_⟩
    split at h
    · next host rest hchannel => exact .inl ⟨host, rest, hchannel, (Option.some.inj h).symm⟩
    · next hchannel =>
      split at h
      · cases h
      · next hproducing => exact .inr ⟨hchannel, by simpa using hproducing, (Option.some.inj h).symm⟩
  · cases h

theorem step_next (h : step effectiveBatchSize s (.next i found) = some t) :
    ∃ scan ok, s.phase = .selecting ∧ s.pendingScans[i]? = some scan ∧ scan.phase = .finished ok ∧
      t = startPending
        { s with
          pendingScans := s.pendingScans.eraseIdx i
          hostsScanned := s.hostsScanned ++ [scan.host]
          results := if ok && found then s.results ++ [scan.host] else s.results
          lastActivity := s.clock
          phase := .checking } := by
  simp only [step] at h
  split at h
  · next hphase =>
    simp only [Option.bind_eq_some_iff] at h
    obtain ⟨scan, hscan, h⟩ := h
    split at h
    · next ok hfinished => exact ⟨scan, ok, hphase, hscan, hfinished, (Option.some.inj h).symm⟩
    · cases h
  · cases h

end Steps

/-! ## What an operation does -/

section Fields

variable (s : Pipeline) (host : ResponsiveHost)

@[simp] theorem accept_announced : (s.accept host).announced = s.announced := by unfold accept; split <;> rfl
@[simp] theorem accept_channel : (s.accept host).channel = s.channel := by unfold accept; split <;> rfl
@[simp] theorem accept_producing : (s.accept host).producing = s.producing := by unfold accept; split <;> rfl
@[simp] theorem accept_phase : (s.accept host).phase = s.phase := by unfold accept; split <;> rfl
@[simp] theorem accept_channelClosed : (s.accept host).channelClosed = s.channelClosed := by
  unfold accept; split <;> rfl
@[simp] theorem accept_deepScanConcurrency : (s.accept host).deepScanConcurrency = s.deepScanConcurrency := by
  unfold accept
  split <;> rfl
@[simp] theorem accept_cancelled : (s.accept host).cancelled = s.cancelled := by unfold accept; split <;> rfl

@[simp] theorem startPending_announced : s.startPending.announced = s.announced := by
  unfold startPending; split <;> rfl
@[simp] theorem startPending_channel : s.startPending.channel = s.channel := by unfold startPending; split <;> rfl
@[simp] theorem startPending_producing : s.startPending.producing = s.producing := by
  unfold startPending; split <;> rfl
@[simp] theorem startPending_phase : s.startPending.phase = s.phase := by unfold startPending; split <;> rfl
@[simp] theorem startPending_channelClosed : s.startPending.channelClosed = s.channelClosed := by
  unfold startPending
  split <;> rfl
@[simp] theorem startPending_deepScanConcurrency : s.startPending.deepScanConcurrency = s.deepScanConcurrency := by
  unfold startPending
  split <;> rfl
@[simp] theorem startPending_cancelled : s.startPending.cancelled = s.cancelled := by
  unfold startPending; split <;> rfl

end Fields

/-- Every host is somewhere. -/
def hosts (s : Pipeline) : List ResponsiveHost :=
  s.hostsScanned ++ (s.pendingScans.map HostScan.host ++ (s.pendingHosts ++ s.channel))

theorem perm_hosts_accept (s : Pipeline) (host : ResponsiveHost) : (s.accept host).hosts.Perm (host :: s.hosts) := by
  unfold accept hosts
  split
  · simp only [List.map_append, List.map_cons, List.map_nil]
    grind
  · grind

theorem perm_hosts_startPending (s : Pipeline) : s.startPending.hosts.Perm s.hosts := by
  unfold startPending hosts
  split
  · next host rest hpending =>
    simp only [hpending, List.map_append, List.map_cons, List.map_nil]
    grind
  · exact .refl _

theorem pendingScans_accept_ne_nil {s : Pipeline} (host : ResponsiveHost) (h : 1 ≤ s.deepScanConcurrency) :
    (s.accept host).pendingScans ≠ [] := by
  unfold accept
  split
  · simp
  · next hfull =>
    intro hnil
    simp only at hnil
    simp [hnil] at hfull
    omega

theorem startPending_waiting (s : Pipeline) (h : s.startPending.pendingHosts ≠ []) :
    s.startPending.pendingScans ≠ [] := by
  unfold startPending at h ⊢
  split at h
  · simp
  · next hnil => exact absurd hnil h

theorem hasPending_eq_false {s : Pipeline} : s.hasPending = false ↔ s.pendingScans = [] ∧ s.pendingHosts = [] := by
  simp [hasPending]

theorem expired_iff {s : Pipeline} : s.expired ↔
    s.channelClosed ∧ (s.pendingScans = [] ∧ s.pendingHosts = []) ∧
        lateArrivalGracePeriod ≤ s.clock - s.lastActivity := by
  simp [expired, hasPending_eq_false, and_assoc]

/-! ## The invariant -/

/-- Nothing is waiting or under way, and nothing can come. -/
def Drained (s : Pipeline) : Prop :=
  s.channelClosed ∧ s.channel = [] ∧ s.pendingScans = [] ∧ s.pendingHosts = []

structure Inv (s : Pipeline) : Prop where
  hosts : s.hosts.Perm s.announced
  concurrency : 1 ≤ s.deepScanConcurrency
  waiting : s.pendingHosts ≠ [] → s.pendingScans ≠ []
  closed : s.channelClosed → s.producing = false ∧ s.channel = []
  ended : s.phase = .ended → s.Drained
  failed : s.phase = .failed → s.cancelled

variable {effectiveBatchSize : Nat} {s t : Pipeline}

theorem Inv.drained (h : Inv s) (hexpired : s.expired) : s.Drained := by
  obtain ⟨hclosed, ⟨hscans, hpending⟩, -⟩ := expired_iff.mp hexpired
  exact ⟨hclosed, (h.closed hclosed).2, hscans, hpending⟩

theorem Inv.step {a : Action} (h : Inv s) (hstep : Pipeline.step effectiveBatchSize s a = some t) : Inv t := by
  cases a with
  | announce host =>
    simp only [Pipeline.step] at hstep
    split at hstep
    · next hroom =>
      cases hstep
      have hopen : ¬s.channelClosed := fun hclosed => by simp [(h.closed hclosed).1] at hroom
      exact {
        hosts := by
          have hhosts := h.hosts
          simp only [Pipeline.hosts] at hhosts ⊢
          simpa only [List.append_assoc] using hhosts.append_right [host]
        concurrency := h.concurrency
        waiting := h.waiting
        closed := fun hclosed => absurd hclosed hopen
        ended := fun hended => absurd (h.ended hended).1 hopen
        failed := h.failed }
    · cases hstep
  | producersEnd =>
    simp only [Pipeline.step] at hstep
    split at hstep
    · cases hstep
      exact { h with closed := fun hclosed => ⟨rfl, (h.closed hclosed).2⟩ }
    · cases hstep
  | elapse ms =>
    cases hstep
    exact { h with }
  | cancel =>
    cases hstep
    exact { h with failed := fun _ => rfl }
  | controller a =>
    simp only [Pipeline.step, Option.map_eq_some_iff] at hstep
    obtain ⟨controller, -, rfl⟩ := hstep
    exact { h with }
  | work i responsivePorts =>
    obtain ⟨scan, phase, total, completed, hphase, hscan, -, rfl⟩ := step_work hstep
    have hmap : (s.pendingScans.set i { scan with phase }).map HostScan.host = s.pendingScans.map HostScan.host := by
      obtain ⟨hi, hget⟩ := List.getElem?_eq_some_iff.mp hscan
      have hi' : i < (s.pendingScans.map HostScan.host).length := by simpa using hi
      have hhost : scan.host = (s.pendingScans.map HostScan.host)[i] := by simp [hget]
      rw [List.map_set, hhost, List.set_getElem_self]
    exact {
      hosts := by simpa only [Pipeline.hosts, hmap] using h.hosts
      concurrency := h.concurrency
      waiting := fun hpending hnil => h.waiting hpending (by simpa using hnil)
      closed := h.closed
      ended := fun hended => by rw [hphase] at hended; cases hended
      failed := h.failed }
  | receive newConcurrency =>
    obtain ⟨-, hopen, ⟨host, rest, hchannel, rfl⟩ | ⟨hchannel, hproducing, rfl⟩⟩ := step_receive hstep
    · have hconcurrency := h.concurrency
      exact {
        hosts := by
          refine (perm_hosts_accept _ host).trans ?_
          have hhosts := h.hosts
          simp only [Pipeline.hosts, hchannel, accept_announced] at hhosts ⊢
          refine List.Perm.trans ?_ hhosts
          grind
        concurrency := by rwa [accept_deepScanConcurrency]
        waiting := fun _ => pendingScans_accept_ne_nil host hconcurrency
        closed := fun hclosed => by simp [hopen] at hclosed
        ended := fun hended => by simp at hended
        failed := fun hfailed => by simp at hfailed }
    · exact {
        hosts := h.hosts
        concurrency := Nat.le_trans h.concurrency (Nat.le_max_left _ _)
        waiting := h.waiting
        closed := fun _ => ⟨hproducing, hchannel⟩
        ended := fun hended => by cases hended
        failed := fun hfailed => by cases hfailed }
  | next i found =>
    obtain ⟨scan, ok, -, hscan, -, rfl⟩ := step_next hstep
    obtain ⟨hi, hget⟩ := List.getElem?_eq_some_iff.mp hscan
    have herase : (scan :: s.pendingScans.eraseIdx i).Perm s.pendingScans := by
      rw [← hget]
      exact List.getElem_cons_eraseIdx_perm hi
    exact {
      hosts := by
        refine (perm_hosts_startPending _).trans ?_
        have hhosts := h.hosts
        have hmap := herase.map HostScan.host
        simp only [Pipeline.hosts, startPending_announced, List.map_cons] at hhosts hmap ⊢
        refine List.Perm.trans ?_ hhosts
        grind
      concurrency := by rw [startPending_deepScanConcurrency]; exact h.concurrency
      waiting := startPending_waiting _
      closed := fun hclosed => by
        simp only [startPending_channelClosed, startPending_producing, startPending_channel] at hclosed ⊢
        exact h.closed hclosed
      ended := fun hended => by simp at hended
      failed := fun hfailed => by simp at hfailed }
  | tick =>
    simp only [Pipeline.step] at hstep
    split at hstep
    · cases hstep
      exact {
        hosts := h.hosts
        concurrency := h.concurrency
        waiting := h.waiting
        closed := h.closed
        ended := fun hended => by
          split at hended
          · next hexpired => exact h.drained hexpired
          · cases hended
        failed := fun hfailed => by split at hfailed <;> cases hfailed }
    · cases hstep
  | check =>
    simp only [Pipeline.step] at hstep
    split at hstep
    · cases hstep
      exact {
        hosts := h.hosts
        concurrency := h.concurrency
        waiting := h.waiting
        closed := h.closed
        ended := fun hended => by
          split at hended
          · cases hended
          · split at hended
            · next hexpired => exact h.drained hexpired
            · cases hended
        failed := fun hfailed => by
          split at hfailed
          · next hcancelled => exact hcancelled
          · split at hfailed <;> cases hfailed }
    · cases hstep

theorem inv_start {deepScanConcurrency : Nat} (h : 1 ≤ deepScanConcurrency) (effectiveBatchSize : Nat) :
    Inv (start deepScanConcurrency effectiveBatchSize) where
  hosts := .refl _
  concurrency := h
  waiting hpending := absurd rfl hpending
  closed hclosed := by cases hclosed
  ended hended := by cases hended
  failed hfailed := by cases hfailed

/-! ## What is left to do -/

/-- The loop receives or collects, or a deep scan goes on. -/
def Action.works : Action → Bool
  | receive _ | next _ _ | work _ _ => true
  | _ => false

/-- What is left for the loop and for the deep scans, and what a host brings. -/
def left (s : Pipeline) : Nat :=
  (if s.channelClosed then 0 else 1) + 65540 * s.channel.length + 65539 * s.pendingHosts.length +
    (s.pendingScans.map fun scan => scan.phase.left).sum

theorem left_accept (s : Pipeline) (host : ResponsiveHost) : (s.accept host).left = s.left + 65539 := by
  unfold accept
  split
  · simp only [left, List.map_append, List.map_cons, List.map_nil, List.sum_append, List.sum_cons, List.sum_nil,
      ScanPhase.left]
    omega
  · simp only [left, List.length_cons]
    omega

theorem left_startPending (s : Pipeline) : s.startPending.left = s.left := by
  unfold startPending
  split
  · next host rest hpending =>
    simp only [left, hpending, List.map_append, List.map_cons, List.map_nil, List.sum_append, List.sum_cons,
      List.sum_nil, List.length_cons, ScanPhase.left]
    omega
  · rfl

/-- A step that works uses up some of what is left, and only a new host adds to it. -/
theorem left_step (s : Pipeline) (a : Action) (t : Pipeline) (hstep : step effectiveBatchSize s a = some t) :
    (if a.works then 1 else 0) + t.left + 65540 * s.announced.length ≤ s.left + 65540 * t.announced.length := by
  cases a with
  | announce host =>
    simp only [step] at hstep
    split at hstep
    · cases hstep
      simp only [Action.works, left, List.length_append, List.length_cons, List.length_nil,
        Bool.false_eq_true, if_false]
      omega
    · cases hstep
  | controller a =>
    simp only [step, Option.map_eq_some_iff] at hstep
    obtain ⟨controller, -, rfl⟩ := hstep
    simp [Action.works, left]
  | elapse | cancel =>
    cases hstep
    simp [Action.works, left]
  | producersEnd | tick | check =>
    simp only [step] at hstep
    split at hstep
    · cases hstep
      simp [Action.works, left]
    · cases hstep
  | work i responsivePorts =>
    obtain ⟨scan, phase, total, completed, -, hscan, hwork, rfl⟩ := step_work hstep
    have hlt := ScanPhase.left_work hwork
    have hsum := sum_map_set (f := fun scan => scan.phase.left) hscan { scan with phase }
    simp only [Action.works, left, if_true] at hsum ⊢
    omega
  | receive newConcurrency =>
    obtain ⟨-, hopen, ⟨host, rest, hchannel, rfl⟩ | ⟨hchannel, -, rfl⟩⟩ := step_receive hstep
    · rw [left_accept, accept_announced]
      simp only [Action.works, left, hchannel, List.length_cons, if_true]
      omega
    · simp [Action.works, left, hopen]
      omega
  | next i found =>
    obtain ⟨scan, ok, -, hscan, hfinished, rfl⟩ := step_next hstep
    have hsum := sum_map_eraseIdx (f := fun scan => scan.phase.left) hscan
    have hone : scan.phase.left = 1 := by rw [hfinished]; rfl
    rw [left_startPending, startPending_announced]
    simp only [Action.works, left, if_true]
    omega

/-- As long as something is waiting or under way, the loop or a deep scan can go on. -/
theorem Inv.exists_work (h : Inv s) (hphase : s.phase = .selecting) (hproducing : s.producing = false)
    (hdrained : ¬s.Drained) : ∃ a, a.works ∧ (Pipeline.step effectiveBatchSize s a).isSome := by
  by_cases hclosed : s.channelClosed
  · have hscans : s.pendingScans ≠ [] := fun hscans => by
      by_cases hpending : s.pendingHosts = []
      · exact hdrained ⟨hclosed, (h.closed hclosed).2, hscans, hpending⟩
      · exact h.waiting hpending hscans
    obtain ⟨scan, rest, hscans⟩ := List.exists_cons_of_ne_nil hscans
    cases hscan : scan.phase with
    | finished ok => exact ⟨.next 0 true, rfl, by simp [Pipeline.step, hphase, hscans, hscan]⟩
    | starting =>
      refine ⟨.work 0 1, rfl, ?_⟩
      simp only [Pipeline.step, hphase, hscans, if_true, List.getElem?_cons_zero, Option.bind_some, hscan,
        ScanPhase.work]
      split
      · rfl
      · split <;> rfl
    | responsiveness => exact ⟨.work 0 1, rfl, by simp [Pipeline.step, hphase, hscans, hscan, ScanPhase.work]⟩
    | scanning chunks =>
      refine ⟨.work 0 1, rfl, ?_⟩
      cases chunks with
      | zero => simp [Pipeline.step, hphase, hscans, hscan, ScanPhase.work]
      | succ chunks =>
        simp only [Pipeline.step, hphase, hscans, if_true, List.getElem?_cons_zero, Option.bind_some, hscan,
          ScanPhase.work]
        split <;> rfl
  · refine ⟨.receive none, rfl, ?_⟩
    simp only [Bool.not_eq_true] at hclosed
    cases hchannel : s.channel <;> simp [Pipeline.step, hphase, hclosed, hproducing, hchannel]

theorem tick_of_drained (h : s.Drained) (hphase : s.phase = .selecting)
    (hgrace : lateArrivalGracePeriod ≤ s.clock - s.lastActivity) :
    (step effectiveBatchSize s .tick).map Pipeline.phase = some .ended := by
  have hexpired : s.expired := expired_iff.mpr ⟨h.1, h.2.2, hgrace⟩
  simp [step, hphase, hexpired]

end Pipeline

/-- **In every state of the pipeline: if it has ended, then the producers have, the
channel is closed and empty, nothing is waiting or under way, and every host
announced was deep scanned exactly once; it fails only when cancelled. The loop
and the deep scans take boundedly many steps for each host; once the producers
have ended, they can take one until nothing is left, and when the grace period is
over after that the next tick ends the loop.** -/
theorem pipeline_exact {deepScanConcurrency : Nat} (hconcurrency : 1 ≤ deepScanConcurrency) (effectiveBatchSize : Nat)
    {as : List Pipeline.Action} {s : Pipeline}
    (hrun : Transition.run (Pipeline.step effectiveBatchSize)
      (Pipeline.start deepScanConcurrency effectiveBatchSize) as =
      some s) :
    (s.phase = .ended → s.producing = false ∧ s.Drained ∧ s.hostsScanned.Perm s.announced) ∧
      (s.phase = .failed → s.cancelled) ∧
      as.countP Pipeline.Action.works ≤ 65540 * s.announced.length + 1 ∧
      (s.phase = .checking → (Pipeline.step effectiveBatchSize s .check).isSome) ∧
      (s.phase = .selecting → s.producing = false → ¬s.Drained →
        ∃ a, a.works ∧ (Pipeline.step effectiveBatchSize s a).isSome) ∧
      (s.phase = .selecting → s.Drained → lateArrivalGracePeriod ≤ s.clock - s.lastActivity →
        (Pipeline.step effectiveBatchSize s .tick).map Pipeline.phase = some .ended) := by
  have h : s.Inv := Transition.run_inv (fun _ _ _ h hstep => h.step hstep)
    (Pipeline.inv_start hconcurrency effectiveBatchSize) hrun
  refine ⟨fun hended => ?_, h.failed, ?_, fun hphase => by simp [Pipeline.step, hphase], h.exists_work,
    fun hphase hdrained => Pipeline.tick_of_drained hdrained hphase⟩
  · have hdrained := h.ended hended
    obtain ⟨hclosed, hchannel, hscans, hpending⟩ := h.ended hended
    have hhosts := h.hosts
    simp only [Pipeline.hosts, hchannel, hscans, hpending, List.map_nil, List.append_nil] at hhosts
    exact ⟨(h.closed hclosed).1, hdrained, hhosts⟩
  · have hcount := Transition.countP_add_le Pipeline.left_step hrun
    simp only [Pipeline.left, Pipeline.start, List.length_nil, List.map_nil, List.sum_nil, Bool.false_eq_true,
      if_false] at hcount
    omega

/-- A host that ARP has found, and one that does not respond, one at a time. -/
def twoHostsRun : List Pipeline.Action :=
  [.announce ⟨.v4 0xC0A80101, 1, some 0x0A0B0C0D0E0F⟩, .announce ⟨.v4 0x0A000001, 2, none⟩, .producersEnd,
    .receive none, .check, .receive none, .check, .receive none, .check] ++
  List.replicate 68 (.work 0 0) ++
  [.next 0 true, .check, .work 0 0, .work 0 0, .next 0 false, .check, .elapse 30000, .tick]

theorem pipeline_twoHosts :
    ∃ s, Transition.run (Pipeline.step 1000) (Pipeline.start 1 1000) twoHostsRun = some s ∧ s.phase = .ended ∧
      s.hostsScanned.Perm s.announced := by
  have hended : (Transition.run (Pipeline.step 1000) (Pipeline.start 1 1000) twoHostsRun).map Pipeline.phase =
      some .ended := by decide +kernel
  obtain ⟨s, hrun, hphase⟩ := Option.map_eq_some_iff.mp hended
  exact ⟨s, hrun, hphase, ((pipeline_exact (by decide) 1000 hrun).1 hphase).2.2⟩

end Netvisor
