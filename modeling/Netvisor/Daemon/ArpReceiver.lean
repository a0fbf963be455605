/-
The receiver of an ARP scan. It takes frames from the channel until a receive
comes back empty after sending is done, and then for another
`POST_SCAN_RECEIVE`.

The end of sending is looked at only where a receive comes back empty. While
frames keep arriving, which they do on a busy network, it is not seen, the
window does not begin, and the receiver goes on as long as they do.
-/
import Mathlib.Data.Nat.Find
import Netvisor.Entities

namespace Netvisor.Arp

abbrev Ipv4Addr := BitVec 32

/-- In nanoseconds, as every time here. -/
def postScanReceive : Nat := 5000000000

/-- What the receiver reads of an ARP packet. -/
structure ArpPacket where
  isReply : Bool
  senderProtoAddr : Ipv4Addr
  senderHwAddr : MacAddress

/-- What the receiver reads of a frame; `arp` where it is of that type and long
enough. -/
structure EthernetPacket where
  source : MacAddress
  arp : Option ArpPacket

/-- How a receive ends. -/
inductive Received
  /-- With bytes, and the frame they are if they are one. -/
  | packet (ethernet : Option EthernetPacket)
  /-- Empty after the read timeout, or with an error. -/
  | timeout

structure ArpScanResult where
  ip : Ipv4Addr
  mac : MacAddress
deriving DecidableEq, Repr

/-- Where the receiver is in its two loops. -/
inductive Phase
  | receiving
  | final (finalDeadline : Nat)
  | ended

structure Receiver where
  phase : Phase := .receiving
  foundIps : List Ipv4Addr := []
  /-- What was sent to the scan, in order. -/
  results : List ArpScanResult := []

variable (targets : List Ipv4Addr) (ourMac : MacAddress)

/-- A reply of a target is passed on once. -/
def Receiver.handle (r : Receiver) (ethernet : Option EthernetPacket) : Receiver :=
  match ethernet with
  | none => r
  | some frame =>
    if frame.source = ourMac then r
    else match frame.arp with
      | none => r
      | some arp =>
        if arp.isReply && targets.contains arp.senderProtoAddr && !r.foundIps.contains arp.senderProtoAddr then
          { r with
            foundIps := arp.senderProtoAddr :: r.foundIps
            results := r.results ++ [⟨arp.senderProtoAddr, arp.senderHwAddr⟩] }
        else r

/-- What happens during an iteration: when it starts and finishes, what is
received, and whether sending is done when it finishes. -/
structure Iteration where
  start : Nat
  received : Received
  sendingDone : Bool
  finish : Nat

def Receiver.iterate (r : Receiver) (i : Iteration) : Receiver :=
  match r.phase with
  | .receiving => match i.received with
    | .packet ethernet => r.handle targets ourMac ethernet
    | .timeout => if i.sendingDone then { r with phase := .final (i.finish + postScanReceive) } else r
  | .final finalDeadline =>
    if i.start < finalDeadline then
      match i.received with
      | .packet ethernet => r.handle targets ourMac ethernet
      | .timeout => r
    else { r with phase := .ended }
  | .ended => r

/-- What a channel does to its receiver, iteration by iteration. Time passes,
and sending stays done. -/
structure Channel where
  iteration : Nat → Iteration
  start_le_finish : ∀ n, (iteration n).start ≤ (iteration n).finish
  finish_le_start : ∀ n, (iteration n).finish ≤ (iteration (n + 1)).start
  passes : ∀ t, ∃ n, t ≤ (iteration n).start
  stays_done : ∀ n, (iteration n).sendingDone → (iteration (n + 1)).sendingDone

variable (channel : Channel)

/-- The receiver after `n` iterations. -/
def run : Nat → Receiver
  | 0 => {}
  | n + 1 => (run n).iterate targets ourMac (channel.iteration n)

/-- The `n`-th iteration takes place: the receiver is in its first loop, or in
its second one before the deadline. -/
def Performs (n : Nat) : Prop :=
  match (run targets ourMac channel n).phase with
  | .receiving => True
  | .final finalDeadline => (channel.iteration n).start < finalDeadline
  | .ended => False

/-- The first iteration that finishes with sending done. -/
def FinishesSending (m : Nat) : Prop :=
  (channel.iteration m).sendingDone ∧ ∀ k < m, ¬(channel.iteration k).sendingDone

/-- Once sending is done, every further iteration starts within
`POST_SCAN_RECEIVE`, and the receiver ends. -/
def EndsAfterSending : Prop :=
  ∀ m, FinishesSending channel m →
    (∀ n, m < n → Performs targets ourMac channel n →
      (channel.iteration n).start < (channel.iteration m).finish + postScanReceive) ∧
    ∃ n, (run targets ourMac channel n).phase = .ended

/-- A receive that comes back empty once sending is done. -/
def IdleAfterSending (m : Nat) : Prop :=
  (channel.iteration m).sendingDone ∧ (channel.iteration m).received = .timeout

/-- The first receive that comes back empty once sending is done. -/
def FirstIdle (k : Nat) : Prop :=
  IdleAfterSending channel k ∧ ∀ j < k, ¬IdleAfterSending channel j

/-- A receive comes back empty after sending, and no iteration starts within the
window from there that is too late for the window from the end of sending. -/
def IdleInTime : Prop :=
  ∀ m, FinishesSending channel m → ∃ k, FirstIdle channel k ∧
    ∀ n, m < n → (channel.iteration n).start < (channel.iteration k).finish + postScanReceive →
      (channel.iteration n).start < (channel.iteration m).finish + postScanReceive

variable {targets ourMac channel}

@[simp] theorem Receiver.phase_handle (r : Receiver) (ethernet : Option EthernetPacket) :
    (r.handle targets ourMac ethernet).phase = r.phase := by
  unfold Receiver.handle
  split
  · rfl
  · split
    · rfl
    · split
      · rfl
      · split <;> rfl

theorem start_mono {m n : Nat} (h : m ≤ n) : (channel.iteration m).start ≤ (channel.iteration n).start := by
  induction n, h using Nat.le_induction with
  | base => exact Nat.le_refl _
  | succ n _ ih => exact Nat.le_trans ih (Nat.le_trans (channel.start_le_finish n) (channel.finish_le_start n))

variable (targets ourMac)

/-- The first loop goes on until a receive comes back empty after sending. -/
theorem phase_receiving {n : Nat} (h : ∀ m < n, ¬IdleAfterSending channel m) :
    (run targets ourMac channel n).phase = .receiving := by
  induction n with
  | zero => rfl
  | succ n ih =>
    have hphase := ih fun m hm => h m (by omega)
    have hidle := h n (by omega)
    simp only [run, Receiver.iterate, hphase]
    split
    · rw [Receiver.phase_handle, hphase]
    · next hreceived =>
      have hdone : ¬(channel.iteration n).sendingDone := fun hd => hidle ⟨hd, hreceived⟩
      rw [if_neg hdone, hphase]

/-- From then on the receiver is in its second loop, until an iteration starts
after the deadline. -/
theorem phase_final {k : Nat} (hk : FirstIdle channel k) {n : Nat} (hn : k < n) :
    (run targets ourMac channel n).phase = .final ((channel.iteration k).finish + postScanReceive) ∨
      (run targets ourMac channel n).phase = .ended ∧
        (channel.iteration k).finish + postScanReceive ≤ (channel.iteration n).start := by
  induction n, hn using Nat.le_induction with
  | base =>
    left
    simp only [run, Receiver.iterate, phase_receiving targets ourMac hk.2, hk.1.2, hk.1.1, if_true]
  | succ n _ ih =>
    have hstart : (channel.iteration n).start ≤ (channel.iteration (n + 1)).start := start_mono (Nat.le_succ n)
    rcases ih with hfinal | ⟨hended, hlate⟩
    · simp only [run, Receiver.iterate, hfinal]
      split
      · split
        · rw [Receiver.phase_handle, hfinal]
          exact .inl rfl
        · exact .inl hfinal
      · next hlate => exact .inr ⟨rfl, Nat.le_trans (Nat.le_of_not_lt hlate) hstart⟩
    · right
      simp only [run, Receiver.iterate, hended]
      exact ⟨trivial, Nat.le_trans hlate hstart⟩

/-- The receiver takes what starts within the window from the first empty receive. -/
theorem performs_iff {k : Nat} (hk : FirstIdle channel k) (n : Nat) :
    Performs targets ourMac channel n ↔
      (channel.iteration n).start < (channel.iteration k).finish + postScanReceive := by
  rw [Performs]
  by_cases hn : k < n
  · rcases phase_final targets ourMac hk hn with hfinal | ⟨hended, hlate⟩
    · rw [hfinal]
    · rw [hended]
      exact ⟨False.elim, fun hstart => Nat.not_lt.mpr hlate hstart⟩
  · have hle : n ≤ k := Nat.le_of_not_lt hn
    rw [phase_receiving targets ourMac fun j hj => hk.2 j (by omega)]
    have hstart : (channel.iteration n).start ≤ (channel.iteration k).start := start_mono hle
    have hfinish := channel.start_le_finish k
    have hwindow : 0 < postScanReceive := by decide
    simp only [true_iff]
    omega

/-- Time passes the deadline, and the receiver ends. -/
theorem exists_ended {k : Nat} (hk : FirstIdle channel k) :
    ∃ n, (run targets ourMac channel n).phase = .ended := by
  obtain ⟨n, hn⟩ := channel.passes ((channel.iteration k).finish + postScanReceive)
  have hlt : k < n := by
    by_contra hle
    have hstart : (channel.iteration n).start ≤ (channel.iteration k).start := start_mono (Nat.le_of_not_lt hle)
    have hfinish := channel.start_le_finish k
    have hwindow : 0 < postScanReceive := by decide
    omega
  refine ⟨n + 1, ?_⟩
  rcases phase_final targets ourMac hk hlt with hfinal | ⟨hended, -⟩
  · simp only [run, Receiver.iterate, hfinal, if_neg (Nat.not_lt.mpr hn)]
  · simp only [run, Receiver.iterate, hended]

/-- A receiver that ends has had an empty receive. -/
theorem exists_firstIdle {n : Nat} (h : (run targets ourMac channel n).phase = .ended) :
    ∃ k, FirstIdle channel k := by
  classical
  have hidle : ∃ k, IdleAfterSending channel k := by
    by_contra hnone
    have hreceiving := phase_receiving targets ourMac fun k (_ : k < n) hk => hnone ⟨k, hk⟩
    rw [h] at hreceiving
    cases hreceiving
  exact ⟨Nat.find hidle, Nat.find_spec hidle, fun j hj => Nat.find_min hidle hj⟩

/-- **The receiver ends in time after sending exactly when a receive comes back
empty in time.** -/
theorem endsAfterSending_iff (channel : Channel) : EndsAfterSending targets ourMac channel ↔ IdleInTime channel := by
  constructor
  · intro hends m hm
    obtain ⟨hwithin, n, hended⟩ := hends m hm
    obtain ⟨k, hk⟩ := exists_firstIdle targets ourMac hended
    exact ⟨k, hk, fun n hn hstart => hwithin n hn ((performs_iff targets ourMac hk n).mpr hstart)⟩
  · intro hidle m hm
    obtain ⟨k, hk, hwithin⟩ := hidle m hm
    exact ⟨fun n hn hperforms => hwithin n hn ((performs_iff targets ourMac hk n).mp hperforms),
      exists_ended targets ourMac hk⟩

/-- A frame every nanosecond. -/
def busy : Channel where
  iteration n := { start := n, received := .packet none, sendingDone := true, finish := n }
  start_le_finish _ := Nat.le_refl _
  finish_le_start n := Nat.le_succ n
  passes t := ⟨t, Nat.le_refl t⟩
  stays_done _ h := h

/-- On a busy channel the receiver never ends. -/
theorem busy_not_endsAfterSending : ¬EndsAfterSending [] 0 busy := by
  intro hends
  obtain ⟨-, n, hended⟩ := hends 0 ⟨rfl, fun k hk => absurd hk (Nat.not_lt_zero k)⟩
  have hreceiving := phase_receiving [] 0 fun m (_ : m < n) (hm : IdleAfterSending busy m) => nomatch hm.2
  rw [hended] at hreceiving
  cases hreceiving

end Netvisor.Arp
