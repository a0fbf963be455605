/-
The announcement of the next session: a `ServerPoll` daemon is to be told of a
session that becomes runnable by the event the service publishes for it.

No operation ever publishes an event in phase `started`: the payload of a
waiting session is pending, and every other event is of a session that is over.
So nothing the service publishes is turned into a discovery request.
-/
import Netvisor.Daemons.Subscriber
import Netvisor.Discovery.SessionsFacts

namespace Netvisor

open DaemonService (Registry polled)

namespace DiscoveryService

/-- No event says that a session started. -/
def Quiet (v : DiscoveryService) : Prop := ∀ event ∈ v.events, event.phase ≠ .started

variable {v w : DiscoveryService} {now : DateTime}

theorem Quiet.of_events (h : Quiet v) (he : w.events = v.events) : Quiet w := by
  unfold Quiet
  rwa [he]

theorem Quiet.publishDiscovery {event : DiscoveryUpdatePayload} (h : Quiet v) (hp : event.phase ≠ .started) :
    Quiet (v.publishDiscovery event) := by
  intro e he
  rcases List.mem_cons.mp he with rfl | he
  · exact hp
  · exact h e he

theorem not_started_of_isTerminal {p : DiscoveryPhase} (h : p.isTerminal = true) : p ≠ .started := by
  rintro rfl
  cases h

theorem Quiet.startQueued {session : DiscoveryUpdatePayload} {running : Bool} (h : Quiet v)
    (hp : session.phase ≠ .started) : Quiet (v.startQueued session running) := by
  cases running with
  | false =>
    have : Quiet ((v.enqueue session.daemonId session.sessionId).publishDiscovery session) :=
      Quiet.publishDiscovery (h.of_events rfl) hp
    exact this.of_events rfl
  | true => exact h.of_events rfl

theorem Quiet.applyUpdate {update old : DiscoveryUpdatePayload} (h : Quiet v) :
    Quiet (v.applyUpdate update old).1 := by
  unfold DiscoveryService.applyUpdate
  split
  · next hterminal =>
    exact Quiet.publishDiscovery (h.of_events rfl) (not_started_of_isTerminal hterminal)
  · exact h.of_events rfl

theorem Quiet.updateSession {update : DiscoveryUpdatePayload} (h : Quiet v) :
    Quiet (v.updateSession update now).1 := by
  unfold DiscoveryService.updateSession
  simp only
  split
  · exact Quiet.applyUpdate (h.of_events rfl)
  · split
    · exact h.of_events rfl
    · exact Quiet.applyUpdate (h.of_events rfl)

theorem events_createHistorical {session : DiscoveryUpdatePayload} {name : String} {saved : Option Uuid} :
    (v.createHistorical session name now saved).events = v.events := by
  cases saved <;> rfl

theorem events_advanceQueue {daemonId : Uuid} : (v.advanceQueue daemonId).1.events = v.events := by
  unfold advanceQueue
  split <;> rfl

theorem events_finishSession {session : DiscoveryUpdatePayload} {saved : Option Uuid} :
    (v.finishSession session now saved).1.events = v.events := by
  refine events_advanceQueue.trans ?_
  exact events_createHistorical

theorem Quiet.finishUpdate {f : Finishing} {saved : Option Uuid} (h : Quiet v) :
    Quiet (v.finishUpdate f now saved) := by
  unfold DiscoveryService.finishUpdate
  have hquiet : Quiet (v.finishSession f.session now saved).1 := h.of_events events_finishSession
  split
  · next next hfinish =>
    rw [hfinish] at hquiet
    -- the next session is announced as pending
    exact hquiet.publishDiscovery (by simp [DiscoveryUpdatePayload.new])
  · next hfinish =>
    rw [hfinish] at hquiet
    exact hquiet

theorem Quiet.requestCancellation {cancelled : DiscoveryUpdatePayload} (h : Quiet v)
    (hp : cancelled.phase ≠ .started) : Quiet (v.requestCancellation cancelled) :=
  (h.publishDiscovery hp).of_events rfl

theorem events_failStalled {saved : Uuid → Option Uuid} {stalled : DiscoveryUpdatePayload} :
    (v.failStalled now saved stalled).events = v.events := by
  unfold failStalled
  split
  · refine events_createHistorical.trans ?_
    unfold dropCancellation
    split
    · split <;> rfl
    · rfl
  · rfl

theorem events_removeStalled {saved : Uuid → Option Uuid} : ∀ {stalled : List DiscoveryUpdatePayload}
    {v : DiscoveryService}, (v.removeStalled now saved stalled).events = v.events
  | [], _ => rfl
  | stalled :: rest, v => by
    have ih : ((v.failStalled now saved stalled).removeStalled now saved rest).events =
        (v.failStalled now saved stalled).events := events_removeStalled
    exact ih.trans events_failStalled

theorem events_cleanupOldSessions {maxAgeHours : Int} :
    (v.cleanupOldSessions now maxAgeHours).events = v.events := by
  unfold cleanupOldSessions
  generalize v.oldSessions (now - hours maxAgeHours) = ids
  induction ids generalizing v with
  | nil => rfl
  | cons id ids ih =>
    refine ih.trans ?_
    unfold removeOld
    split <;> rfl

end DiscoveryService

namespace Sessions

open DiscoveryService (Quiet)

/-- What a call is still to publish is not in phase `started`. -/
def Call.quiet : Call → Prop
  | .startRead session | .startQueue session _ => session.phase ≠ .started
  | .cancelActive cancelled => cancelled.phase ≠ .started
  | _ => True

structure Unstarted (s : State) : Prop where
  events : Quiet s.service
  calls : ∀ call ∈ s.calls, call.quiet

variable {s t : State} {a : Action}

theorem Unstarted.of_calls (h : Unstarted s) (hq : Quiet t.service)
    (hc : ∀ call ∈ t.calls, call ∈ s.calls ∨ call.quiet) :
    Unstarted t where
  events := hq
  calls call hmem := (hc call hmem).elim (h.calls call) id

theorem Unstarted.resumes {saved : Uuid → Option Uuid} {call : Call} (h : Unstarted s) (hcall : call.quiet)
    (hs : Resumes s saved call t) : Unstarted t := by
  have hkeep : ∀ c ∈ s.calls, c ∈ s.calls ∨ c.quiet := fun _ hc => .inl hc
  have hcons {new : Call} (hnew : new.quiet) : ∀ c ∈ new :: s.calls, c ∈ s.calls ∨ c.quiet := by
    intro c hc
    rcases List.mem_cons.mp hc with rfl | hc
    · exact .inr hnew
    · exact .inl hc
  cases hs with
  | startRead => exact h.of_calls h.events (hcons hcall)
  | startQueue => exact h.of_calls (h.events.startQueued hcall) hkeep
  | cancelPending hf => exact h.of_calls (h.events.of_events rfl) hkeep
  | cancelActive => exact h.of_calls (h.events.requestCancellation hcall) hkeep
  | request =>
    exact h.of_calls (h.events.requestCancellation (by simp [DiscoveryService.cancelledUpdate])) (hcons trivial)
  | removeStalled hf => exact h.of_calls (h.events.of_events DiscoveryService.events_removeStalled) hkeep
  | workPick hf hwork => exact h.of_calls h.events (hcons trivial)
  | workNone => exact h
  | handOut hf =>
    refine h.of_calls (h.events.of_events ?_) hkeep
    unfold DiscoveryService.transitionSessionToStarting
    split
    · split <;> rfl
    · rfl

theorem Unstarted.section (h : Unstarted s) (hs : Section s a t) : Unstarted t := by
  have hkeep : ∀ c ∈ s.calls, c ∈ s.calls ∨ c.quiet := fun _ hc => .inl hc
  have hcons {new : Call} (hnew : new.quiet) : ∀ c ∈ new :: s.calls, c ∈ s.calls ∨ c.quiet := by
    intro c hc
    rcases List.mem_cons.mp hc with rfl | hc
    · exact .inr hnew
    · exact .inl hc
  cases hs with
  | tick => exact h.of_calls h.events hkeep
  | skip => exact h
  | startSession hf hfresh =>
    refine h.of_calls (h.events.of_events rfl) (hcons ?_)
    unfold Call.quiet DiscoveryService.sessionPayload DiscoveryUpdatePayload.new
    simp
  | updateSession hf haccepts => exact h.of_calls h.events.updateSession hkeep
  | finishUpdate hf => exact h.of_calls h.events.finishUpdate hkeep
  | cancelSession hf hok hcall =>
    refine h.of_calls h.events (hcons ?_)
    rcases hcall with rfl | rfl <;> simp [Call.quiet, DiscoveryService.cancelledUpdate]
  | cleanupOldSessions hf => exact h.of_calls (h.events.of_events DiscoveryService.events_cleanupOldSessions) hkeep
  | cleanupStalledSessions hf hperm => exact h.of_calls h.events (hcons trivial)
  | getPendingWork hf hidle => exact h.of_calls h.events (hcons trivial)
  | pullCancellation => exact h.of_calls (h.events.of_events rfl) hkeep
  | @resume i saved call t hcall hr =>
    have hrest : Unstarted { s with calls := s.calls.eraseIdx i } :=
      ⟨h.events, fun c hc => h.calls c (List.mem_of_mem_eraseIdx hc)⟩
    exact hrest.resumes (h.calls call (List.mem_of_getElem? hcall)) hr

theorem Unstarted.init : Unstarted {} where
  events _ h := (List.not_mem_nil h).elim
  calls _ h := (List.not_mem_nil h).elim

theorem Unstarted.step (h : Unstarted s) (hs : Sessions.step s a = some t) : Unstarted t := h.section (.of_step hs)

/-! ## Sessions that become runnable -/

/-- The session waits at the head of the queue of the daemon. -/
def Runnable (v : DiscoveryService) (daemonId id : Uuid) : Prop :=
  (v.queue daemonId).head? = some id ∧ ∃ session ∈ v.getSession id, session.phase = .pending

instance (v : DiscoveryService) (daemonId id : Uuid) : Decidable (Runnable v daemonId id) := by
  unfold Runnable
  infer_instance

def BecomesRunnable (s t : State) (daemonId id : Uuid) : Prop :=
  Runnable t.service daemonId id ∧ ¬ Runnable s.service daemonId id

def ServerPolls (registry : Registry) (daemonId : Uuid) : Prop :=
  ∃ daemon, registry.daemons daemonId = .ok (some daemon) ∧ daemon.mode = .serverPoll

/-- An event published so far passed the filter of `DaemonService` and was
turned into a discovery request for the session. -/
def Announced (registry : Registry) (v : DiscoveryService) (id : Uuid) : Prop :=
  ∃ event ∈ v.events, ∃ request ∈ DaemonService.onPublished registry event, ∃ daemonId apiKey discoveryType,
    request = .initiate daemonId apiKey id discoveryType

/-- A session that becomes runnable on a `ServerPoll` daemon is announced. -/
def Announces (registry : Registry) (s : State) (_ : Action) (t : State) : Prop :=
  ∀ daemonId id, ServerPolls registry daemonId → BecomesRunnable s t daemonId id → Announced registry t.service id

def NoneBecomesRunnable (registry : Registry) (s : State) (a : Action) : Prop :=
  ∀ t, step s a = some t → ∀ daemonId id, ServerPolls registry daemonId → ¬ BecomesRunnable s t daemonId id

theorem not_announced_of_quiet {registry : Registry} {v : DiscoveryService} {id : Uuid} (h : Quiet v) :
    ¬ Announced registry v id := by
  rintro ⟨event, hevent, request, hrequest, daemonId, apiKey, discoveryType, rfl⟩
  obtain ⟨daemon, key, -, -, -, -, ⟨hphase, -⟩ | ⟨-, hcancel⟩⟩ :=
    DaemonService.handleEvent_eq_some (DaemonService.mem_onPublished hrequest)
  · exact h event hevent hphase
  · cases hcancel

/-- **No announcement.** A run announces every session that becomes runnable on
a `ServerPoll` daemon exactly if none becomes runnable: of the events published
up to and with a step, none leads to a discovery request. -/
theorem announces_iff_none (registry : Registry) (as : List Action) :
    Transition.Every step (Announces registry) {} as ↔
        Transition.Along step (NoneBecomesRunnable registry) {} as := by
  refine Transition.every_iff_along (I := Unstarted) (fun s a t h _ ht => h.step ht) ?_ ?_ .init
  · intro s a t _ hnone ht daemonId id hpolls hbecomes
    exact absurd hbecomes (hnone t ht daemonId id hpolls)
  · intro s a t h ht hannounces t' ht' daemonId id hpolls hbecomes
    obtain rfl : t = t' := Option.some.inj (ht.symm.trans ht')
    exact not_announced_of_quiet (h.step ht).events (hannounces daemonId id hpolls hbecomes)

/-- A session starts on the empty queue of daemon 4: its event is pending and
does not pass the filter. -/
theorem started_unannounced : ¬ Transition.Every step (Announces polled) {}
    [.startSession ⟨1, 0, 0, ⟨.selfReport 3, .adHoc none, "", 4, 5, []⟩⟩ 7 {}, .resume 0 fun _ => none,
      .resume 0 fun _ => none] := by
  rintro ⟨-, -, hannounces, -⟩
  have hbecomes := hannounces 4 7 ⟨_, rfl, rfl⟩ ⟨by decide +kernel, by decide +kernel⟩
  refine not_announced_of_quiet ?_ hbecomes
  unfold Quiet
  decide +kernel

end Sessions

end Netvisor
