/-
The terminal payload of a daemon in ServerPoll mode: the runs that finish
store it, the poll handler serves it, and the answer reaches the server or is
lost. Runs and polls interleave between their locks in any way.

The handler clears the payload before it answers, so the payload is gone while
the only answer that carries it is still on its way.
-/
import Netvisor.Daemon.DiscoveryService
import Netvisor.Lib.Transition

namespace Netvisor.TerminalPolling

/-- A run between two of its sections. -/
inductive Run
  /-- `initialize_discovery_session`: the terminal payload cleared, the session not set. -/
  | starting (discoveryType : DiscoveryType) (session : DiscoverySession)
  | active (discoveryType : DiscoveryType)
  /-- `finish_discovery`: its session read, the update not reported. -/
  | finishing (discoveryType : DiscoveryType) (session : DiscoverySession) (update : DiscoverySessionUpdate)
  /-- `finish_discovery`: the update reported, the payload not stored. -/
  | reported (payload : DiscoveryUpdatePayload)
  /-- `finish_discovery`: the payload stored, the session not cleared. -/
  | stored (sessionId : Uuid)

/-- A request of the server between two sections of `get_discovery_poll`. -/
inductive Poll
  /-- No session was active, the terminal payload is not read. -/
  | idle
  /-- The progress is read: from the payload that was stored as the `number`-th, if any. -/
  | read (progress : Option DiscoveryUpdatePayload) (number : Option Nat)

/-- An answer on its way to the server. -/
structure Answer where
  progress : Option DiscoveryUpdatePayload
  number : Option Nat

/-- `stored` and `received` are history: how many terminal payloads were stored,
the kept one being the last, and which of them an answer brought to the server. -/
structure State where
  service : DaemonDiscoveryService := {}
  runs : List Run := []
  polls : List Poll := []
  answers : List Answer := []
  stored : Nat := 0
  received : List Nat := []

inductive Action
  /-- A run sets out, once its gateways and its network are known. -/
  | start (discoveryType : DiscoveryType) (session : DiscoverySession)
  | progress (percent : BitVec 8)
  /-- The next section of a run; the result, the token and the time are read by `finish_discovery`. -/
  | run (i : Nat) (discoveryResult : Except String Unit) (isCancelled : Bool) (now : DateTime)
  | poll
  /-- The next section of a poll. -/
  | answer (i : Nat)
  | receive (i : Nat)
  /-- The answer is lost, or the server has stopped waiting for it. -/
  | lose (i : Nat)

/-- The next section of a run, given the state without it. -/
def runOn (s : State) (discoveryResult : Except String Unit) (isCancelled : Bool) (now : DateTime) : Run → State
  | .starting discoveryType session =>
    { s with
      service := s.service.setSession session
      runs := .active discoveryType :: s.runs }
  | .active discoveryType =>
    match s.service.currentSession with
    | some session =>
      { s with
        runs := .finishing discoveryType session
          (DaemonDiscoveryService.terminalUpdate session discoveryResult isCancelled now) :: s.runs }
    -- "No active discovery session"
    | none => s
  | .finishing discoveryType session update =>
    match s.service.currentSession with
    | some current =>
      { s with
        service := s.service.report (.fromStateAndUpdate discoveryType current.info update)
        runs := .reported (.fromStateAndUpdate discoveryType session.info update) :: s.runs }
    | none => s
  | .reported payload =>
    { s with
      service := s.service.storeTerminal payload
      runs := .stored payload.sessionId :: s.runs
      stored := s.stored + 1 }
  | .stored sessionId => { s with service := s.service.clearBuffer.clearSession sessionId }

/-- The next section of a poll, given the state without it. -/
def answer (s : State) : Poll → State
  | .idle =>
    { s with
      polls := .read s.service.terminalPayload (if s.service.terminalPayload.isSome then some s.stored else none) ::
        s.polls }
  | .read progress number =>
    { s with
      service := if progress.any (·.phase.isTerminal) then s.service.clearTerminalPayload else s.service
      answers := ⟨progress, number⟩ :: s.answers }

def step (s : State) : Action → Option State
  | .start discoveryType session =>
    some { s with
      service := s.service.clearTerminalPayload
      runs := .starting discoveryType session :: s.runs }
  | .progress percent =>
    some { s with
      service := { s.service with
        currentSession := s.service.currentSession.map fun session => { session with lastProgress := percent } } }
  | .run i discoveryResult isCancelled now =>
    match s.runs[i]? with
    | some run => some (runOn { s with runs := s.runs.eraseIdx i } discoveryResult isCancelled now run)
    | none => none
  | .poll =>
    match s.service.activeProgress with
    | some progress => some { s with polls := .read (some progress) none :: s.polls }
    | none => some { s with polls := .idle :: s.polls }
  | .answer i =>
    match s.polls[i]? with
    | some poll => some (answer { s with polls := s.polls.eraseIdx i } poll)
    | none => none
  | .receive i =>
    match s.answers[i]? with
    | some a => some { s with answers := s.answers.eraseIdx i, received := a.number.toList ++ s.received }
    | none => none
  | .lose i => some { s with answers := s.answers.eraseIdx i }

/-! ## Payloads that are dropped -/

/-- The terminal payload kept in `s` is no longer kept in `t`. -/
def Drops (s t : State) : Prop :=
  s.service.terminalPayload.isSome ∧ (t.service.terminalPayload = none ∨ t.stored ≠ s.stored)

/-- A payload is dropped only after an answer carrying it has been received. -/
def DropsReceived (s : State) (_ : Action) (t : State) : Prop := Drops s t → s.stored ∈ s.received

/-- The section clears or overwrites the terminal payload. -/
def clears (s : State) : Action → Bool
  | .start _ _ => true
  | .run i _ _ _ =>
    match s.runs[i]? with
    | some (.reported _) => true
    | _ => false
  | .answer i =>
    match s.polls[i]? with
    | some (.read progress _) => progress.any (·.phase.isTerminal)
    | _ => false
  | _ => false

/-- A section that clears or overwrites the terminal payload finds none. -/
def FindsNone (s : State) (a : Action) : Prop := clears s a = true → s.service.terminalPayload = none

/-! ## The invariant -/

def Run.terminal : Run → Prop
  | .finishing _ _ update => update.phase.isTerminal = true
  | .reported payload => payload.phase.isTerminal = true
  | _ => True

/-- A poll that read a stored payload read a terminal one. -/
def Poll.numbered (stored : Nat) : Poll → Prop
  | .read progress (some n) => n ≤ stored ∧ progress.any (·.phase.isTerminal) = true
  | _ => True

/-- As long as a payload is kept, no answer carries it. -/
structure Unserved (s : State) : Prop where
  terminal : ∀ payload ∈ s.service.terminalPayload, payload.phase.isTerminal = true
  runs : ∀ run ∈ s.runs, run.terminal
  polls : ∀ poll ∈ s.polls, poll.numbered s.stored
  answers : ∀ a ∈ s.answers, ∀ n ∈ a.number, n ≤ s.stored ∧ (s.service.terminalPayload.isSome → n < s.stored)
  received : ∀ n ∈ s.received, n ≤ s.stored ∧ (s.service.terminalPayload.isSome → n < s.stored)

theorem Unserved.init : Unserved {} := by
  refine ⟨?_, ?_, ?_, ?_, ?_⟩ <;> simp

variable {s t : State} {a : Action}

theorem clears_of_drops (hs : step s a = some t) (h : Drops s t) : clears s a = true := by
  obtain ⟨hkept, hdrop⟩ := h
  have hstay (hterminal : t.service.terminalPayload = s.service.terminalPayload) (hstored : t.stored = s.stored) :
      False := by
    rcases hdrop with hnone | hne
    · rw [hterminal] at hnone
      rw [hnone] at hkept
      cases hkept
    · exact hne hstored
  cases a with
  | start discoveryType session => rfl
  | progress percent =>
    cases hs
    exact (hstay rfl rfl).elim
  | run i discoveryResult isCancelled now =>
    simp only [step] at hs
    split at hs
    · next run hrun =>
      cases hs
      simp only [clears, hrun]
      cases run with
      | starting discoveryType session => exact (hstay rfl rfl).elim
      | active discoveryType =>
        simp only [runOn] at hstay
        split at hstay <;> exact (hstay rfl rfl).elim
      | finishing discoveryType session update =>
        simp only [runOn] at hstay
        split at hstay <;> exact (hstay rfl rfl).elim
      | reported payload => rfl
      | stored sessionId => exact (hstay rfl rfl).elim
    · cases hs
  | poll =>
    simp only [step] at hs
    split at hs <;> (cases hs; exact (hstay rfl rfl).elim)
  | answer i =>
    simp only [step] at hs
    split at hs
    · next poll hpoll =>
      cases hs
      simp only [clears, hpoll]
      cases poll with
      | idle => exact (hstay rfl rfl).elim
      | read progress number =>
        simp only
        by_contra hterminal
        exact hstay (by simp only [answer, if_neg hterminal]) rfl
    · cases hs
  | receive i =>
    simp only [step] at hs
    split at hs
    · cases hs
      exact (hstay rfl rfl).elim
    · cases hs
  | lose i =>
    cases hs
    exact (hstay rfl rfl).elim

theorem drops_of_clears (hs : step s a = some t) (h : clears s a = true)
    (hkept : s.service.terminalPayload.isSome = true) : Drops s t := by
  refine ⟨hkept, ?_⟩
  cases a with
  | start discoveryType session =>
    cases hs
    exact .inl rfl
  | run i discoveryResult isCancelled now =>
    simp only [clears] at h
    split at h
    · next hrun =>
      simp only [step, hrun] at hs
      cases hs
      exact .inr (Nat.succ_ne_self s.stored)
    · cases h
  | answer i =>
    simp only [clears] at h
    split at h
    · next hpoll =>
      simp only [step, hpoll] at hs
      cases hs
      left
      simp only [answer, h, if_true]
      rfl
    · cases h
  | _ => cases h

theorem Unserved.runOn {discoveryResult : Except String Unit} {isCancelled : Bool} {now : DateTime} {run : Run}
    (h : Unserved s) (hrun : run.terminal) : Unserved (runOn s discoveryResult isCancelled now run) := by
  have hcons {new : Run} (hnew : new.terminal) : ∀ r ∈ new :: s.runs, r.terminal := by
    intro r hr
    rcases List.mem_cons.mp hr with rfl | hr
    · exact hnew
    · exact h.runs r hr
  cases run with
  | starting discoveryType session => exact ⟨h.terminal, hcons trivial, h.polls, h.answers, h.received⟩
  | active discoveryType =>
    simp only [TerminalPolling.runOn]
    split
    · exact ⟨h.terminal, hcons DaemonDiscoveryService.terminalUpdate_isTerminal, h.polls, h.answers, h.received⟩
    · exact h
  | finishing discoveryType session update =>
    simp only [TerminalPolling.runOn]
    split
    · exact ⟨h.terminal, hcons hrun, h.polls, h.answers, h.received⟩
    · exact h
  | reported payload =>
    -- the new payload gets a number that no poll has read yet
    have hlt {n : Nat} (hn : n ≤ s.stored) : n ≤ s.stored + 1 ∧ (True → n < s.stored + 1) :=
      ⟨by omega, fun _ => by omega⟩
    refine ⟨?_, hcons trivial, ?_, fun a ha n hn => ?_, fun n hn => ?_⟩
    · intro p hp
      obtain rfl := Option.some.inj hp
      exact hrun
    · intro poll hpoll
      have hnumbered := h.polls poll hpoll
      unfold Poll.numbered at hnumbered ⊢
      split at hnumbered
      · exact ⟨(hlt hnumbered.1).1, hnumbered.2⟩
      · trivial
    · exact ⟨(hlt (h.answers a ha n hn).1).1, fun _ => (hlt (h.answers a ha n hn).1).2 trivial⟩
    · exact ⟨(hlt (h.received n hn).1).1, fun _ => (hlt (h.received n hn).1).2 trivial⟩
  | stored sessionId => exact ⟨h.terminal, h.runs, h.polls, h.answers, h.received⟩

theorem Unserved.answer {poll : Poll} (h : Unserved s) (hpoll : poll.numbered s.stored) :
    Unserved (answer s poll) := by
  cases poll with
  | idle =>
    refine ⟨h.terminal, h.runs, fun poll hmem => ?_, h.answers, h.received⟩
    rcases List.mem_cons.mp hmem with rfl | hmem
    · cases hkept : s.service.terminalPayload with
      | none => trivial
      | some payload => exact ⟨Nat.le_refl _, h.terminal payload hkept⟩
    · exact h.polls poll hmem
  | read progress number =>
    cases hterminal : progress.any (·.phase.isTerminal) with
    | true =>
      -- nothing is kept any more
      have hcleared : (TerminalPolling.answer s (.read progress number)).service.terminalPayload = none := by
        simp only [TerminalPolling.answer, hterminal, if_true]
        rfl
      refine ⟨fun p hp => ?_, h.runs, h.polls, fun a ha n hn => ?_, fun n hn => ?_⟩
      · rw [hcleared] at hp
        cases hp
      · refine ⟨?_, fun hkept => by rw [hcleared] at hkept; cases hkept⟩
        rcases List.mem_cons.mp ha with rfl | ha
        · obtain rfl : number = some n := hn
          exact hpoll.1
        · exact (h.answers a ha n hn).1
      · exact ⟨(h.received n hn).1, fun hkept => by rw [hcleared] at hkept; cases hkept⟩
    | false =>
      have hnumber : number = none := by
        cases number with
        | none => rfl
        | some n =>
          rw [hpoll.2] at hterminal
          cases hterminal
      have heq : TerminalPolling.answer s (.read progress number) =
          { s with answers := ⟨progress, number⟩ :: s.answers } := by
        simp only [TerminalPolling.answer, hterminal, Bool.false_eq_true, if_false]
      rw [heq]
      refine ⟨h.terminal, h.runs, h.polls, fun a ha n hn => ?_, h.received⟩
      rcases List.mem_cons.mp ha with rfl | ha
      · rw [hnumber] at hn
        cases hn
      · exact h.answers a ha n hn

theorem Unserved.step (h : Unserved s) (hs : step s a = some t) : Unserved t := by
  cases a with
  | start discoveryType session =>
    cases hs
    refine ⟨fun p hp => ?_, fun r hr => ?_, h.polls, fun a ha n hn => ?_, fun n hn => ?_⟩
    · cases hp
    · rcases List.mem_cons.mp hr with rfl | hr
      · trivial
      · exact h.runs r hr
    · exact ⟨(h.answers a ha n hn).1, fun hkept => by cases hkept⟩
    · exact ⟨(h.received n hn).1, fun hkept => by cases hkept⟩
  | progress percent =>
    cases hs
    exact ⟨h.terminal, h.runs, h.polls, h.answers, h.received⟩
  | run i discoveryResult isCancelled now =>
    simp only [TerminalPolling.step] at hs
    split at hs
    · next run hrun =>
      cases hs
      have hrest : Unserved { s with runs := s.runs.eraseIdx i } :=
        ⟨h.terminal, fun r hr => h.runs r (List.mem_of_mem_eraseIdx hr), h.polls, h.answers, h.received⟩
      exact hrest.runOn (h.runs run (List.mem_of_getElem? hrun))
    · cases hs
  | poll =>
    have hpolls {new : Poll} (hnew : new.numbered s.stored) : ∀ p ∈ new :: s.polls, p.numbered s.stored := by
      intro p hp
      rcases List.mem_cons.mp hp with rfl | hp
      · exact hnew
      · exact h.polls p hp
    simp only [TerminalPolling.step] at hs
    split at hs
    · cases hs
      exact ⟨h.terminal, h.runs, hpolls trivial, h.answers, h.received⟩
    · cases hs
      exact ⟨h.terminal, h.runs, hpolls trivial, h.answers, h.received⟩
  | answer i =>
    simp only [TerminalPolling.step] at hs
    split at hs
    · next poll hpoll =>
      cases hs
      have hrest : Unserved { s with polls := s.polls.eraseIdx i } :=
        ⟨h.terminal, h.runs, fun p hp => h.polls p (List.mem_of_mem_eraseIdx hp), h.answers, h.received⟩
      exact hrest.answer (h.polls poll (List.mem_of_getElem? hpoll))
    · cases hs
  | receive i =>
    simp only [TerminalPolling.step] at hs
    split at hs
    · next a ha =>
      cases hs
      refine ⟨h.terminal, h.runs, h.polls, fun a ha => h.answers a (List.mem_of_mem_eraseIdx ha), fun n hn => ?_⟩
      rcases List.mem_append.mp hn with hn | hn
      · exact h.answers a (List.mem_of_getElem? ha) n (Option.mem_toList.mp hn)
      · exact h.received n hn
    · cases hs
  | lose i =>
    cases hs
    exact ⟨h.terminal, h.runs, h.polls, fun a ha => h.answers a (List.mem_of_mem_eraseIdx ha), h.received⟩

/-- **Terminal payloads.** In a run a terminal payload is dropped only after an
answer carrying it was received exactly if none is ever dropped. -/
theorem dropsReceived_iff_findsNone (as : List Action) :
    Transition.Every step DropsReceived {} as ↔ Transition.Along step FindsNone {} as := by
  refine Transition.every_iff_along (I := Unserved) (fun s a t h _ ht => h.step ht) ?_ ?_ .init
  · intro s a t _ hnone ht hdrops
    have hkept := hdrops.1
    rw [hnone (clears_of_drops ht hdrops)] at hkept
    cases hkept
  · intro s a t h ht hreceived hclears
    by_contra hkept
    have hkept : s.service.terminalPayload.isSome = true := Option.isSome_iff_ne_none.mpr hkept
    have hlt := (h.received s.stored (hreceived (drops_of_clears ht hclears hkept))).2 hkept
    omega

/-- Session 7 finishes; the server polls, and the payload is cleared although
the answer is lost. -/
theorem dropped_with_lost_answer : ¬ Transition.Every step DropsReceived {}
    [.start (.selfReport 3) { info := ⟨7, 5, 4, some 0, .selfReport 3⟩ }, .run 0 (.ok ()) false 1,
      .run 0 (.ok ()) false 1, .run 0 (.ok ()) false 1, .run 0 (.ok ()) false 1, .run 0 (.ok ()) false 1,
      .poll, .answer 0, .answer 0, .lose 0] := by
  rintro ⟨-, -, -, -, -, -, -, -, hdropped, -⟩
  exact absurd (hdropped ⟨rfl, .inl rfl⟩) (by decide)

end Netvisor.TerminalPolling
