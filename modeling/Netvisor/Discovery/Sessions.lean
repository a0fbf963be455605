/-
The discovery sessions as a system: users starting and cancelling sessions,
daemons asking for work and sending updates, and the periodic cleanups, all
acting on one `DiscoveryService`, one lock-held section at a time.

`update_session` keeps `sessions` and `session_last_updated` locked from its
first section to its last, so between the two only sections run that take
neither.
-/
import Netvisor.Discovery.Service
import Netvisor.Lib.Transition

namespace Netvisor

inductive DaemonMode
  | serverPoll
  | daemonPoll
deriving DecidableEq, Repr

/-- The daemon an update comes from: authenticated by its key, or the one the
server polled. -/
structure Sender where
  mode : DaemonMode
  daemonId : Uuid
  networkId : Uuid
deriving DecidableEq, Repr

/-- Whether the update reaches `update_session`. The update endpoint compares
the payload with the caller; a poll response is passed on as it is. -/
def Sender.accepts (sender : Sender) (update : DiscoveryUpdatePayload) : Bool :=
  match sender.mode with
  | .daemonPoll => update.networkId == sender.networkId && update.daemonId == sender.daemonId
  | .serverPoll => true

namespace Sessions

/-- A call between two of its sections. -/
inductive Call
  /-- `start_session`: stored, the queue not read. -/
  | startRead (session : DiscoveryUpdatePayload)
  /-- `start_session`: the queue read, not joined. -/
  | startQueue (session : DiscoveryUpdatePayload) (daemonIsRunningDiscovery : Bool)
  /-- `cancel_session` that found the session pending. -/
  | cancelPending (cancelled : DiscoveryUpdatePayload)
  /-- `cancel_session` that found the session started. -/
  | cancelActive (cancelled : DiscoveryUpdatePayload)
  /-- `cleanup_stalled_sessions`, with the sessions still to be cancelled. -/
  | cleanupStalled (now : DateTime) (stalled requests : List DiscoveryUpdatePayload)
  /-- `get_pending_work` that found no active session. -/
  | workCheck (daemonId : Uuid)
  /-- `get_pending_work` that picked its session. -/
  | workPick (daemonId : Uuid) (work : DiscoveryUpdatePayload)
deriving DecidableEq

/-- The sessions a call carries along. -/
def Call.carries : Call → List Uuid
  | .startRead session | .startQueue session _ => [session.sessionId]
  | .cancelPending cancelled | .cancelActive cancelled => [cancelled.sessionId]
  | .cleanupStalled _ stalled _ => stalled.map (·.sessionId)
  | .workCheck _ => []
  | .workPick _ work => [work.sessionId]

/-- The service, the time, the terminal update being finished and the calls in
progress. `handedOut` and `removed` are history: the sessions handed out as
work, and those removed by a terminal update, as stalled, or as cancelled while
pending. -/
structure State where
  service : DiscoveryService := {}
  now : DateTime := 0
  finishing : Option (Sender × Finishing) := none
  calls : List Call := []
  handedOut : List Uuid := []
  removed : List Uuid := []

/-- The id occurs somewhere in the state. -/
def State.mentions (s : State) (id : Uuid) : Bool :=
  (s.service.getSession id).isSome || s.service.daemonSessions.values.any (·.contains id)
    || s.calls.any (·.carries.contains id) || s.handedOut.contains id || s.removed.contains id

inductive Action
  | tick (elapsed : Nat)
  | startSession (discovery : Discovery) (sessionId : Uuid) (snmpCredentials : SnmpCredentialMapping)
  | updateSession (sender : Sender) (update : DiscoveryUpdatePayload)
  | finishUpdate (saved : Option Uuid)
  | cancelSession (sessionId : Uuid)
  | cleanupOldSessions (maxAgeHours : Int)
  /-- The first pass, which finds the stalled sessions in some order. -/
  | cleanupStalledSessions (stalled : List DiscoveryUpdatePayload)
  | getPendingWork (daemonId : Uuid)
  | pullCancellation (daemonId : Uuid)
  /-- The next section of a call in progress. -/
  | resume (i : Nat) (saved : Uuid → Option Uuid)

/-- The ids of `ids` that are stored in `before` and not in `after`. -/
def gone (before after : DiscoveryService) (ids : List Uuid) : List Uuid :=
  ids.filter fun id => (before.getSession id).isSome && (after.getSession id).isNone

/-- The next section of a call, given the state without it. -/
def resume (s : State) (saved : Uuid → Option Uuid) : Call → Option State
  | .startRead session =>
    some { s with calls := .startQueue session (!(s.service.queue session.daemonId).isEmpty) :: s.calls }
  | .startQueue session running => some { s with service := s.service.startQueued session running }
  | .cancelPending cancelled =>
    if s.finishing.isSome then none
    else
      let service := s.service.cancelPending cancelled
      some { s with service, removed := gone s.service service [cancelled.sessionId] ++ s.removed }
  | .cancelActive cancelled => some { s with service := s.service.requestCancellation cancelled }
  | .cleanupStalled now stalled (session :: requests) =>
    some { s with
      service := s.service.requestCancellation
        (DiscoveryService.cancelledUpdate session.sessionId session session.progress s.now)
      calls := .cleanupStalled now stalled requests :: s.calls }
  | .cleanupStalled now stalled [] =>
    if s.finishing.isSome then none
    else
      let service := s.service.removeStalled now saved stalled
      some { s with service, removed := gone s.service service (stalled.map (·.sessionId)) ++ s.removed }
  | .workCheck daemonId =>
    if s.finishing.isSome then none
    else
      match s.service.getSessionsForDaemon daemonId with
      | work :: _ => some { s with calls := .workPick daemonId work :: s.calls }
      | [] => some s
  | .workPick _ work =>
    if s.finishing.isSome then none
    else some { s with
      service := s.service.transitionSessionToStarting work.sessionId
      handedOut := work.sessionId :: s.handedOut }

/-- One section. Those that take a lock `finishing` holds have to wait. -/
def step (s : State) : Action → Option State
  | .tick elapsed => some { s with now := s.now + elapsed }
  | .startSession discovery sessionId snmpCredentials =>
    -- `Uuid::new_v4` gives an id not seen before
    if s.finishing.isSome || s.mentions sessionId then none
    else
      let session := DiscoveryService.sessionPayload discovery sessionId snmpCredentials
      some { s with
        service := s.service.setSession session
        calls := .startRead session :: s.calls }
  | .updateSession sender update =>
    if s.finishing.isSome || !sender.accepts update then none
    else
      let (service, finishing) := s.service.updateSession update s.now
      some { s with service, finishing := finishing.map (sender, ·) }
  | .finishUpdate saved =>
    match s.finishing with
    | some (_, f) =>
      some { s with
        service := s.service.finishUpdate f s.now saved
        finishing := none
        removed := f.session.sessionId :: s.removed }
    | none => none
  | .cancelSession sessionId =>
    if s.finishing.isSome then none
    else
      match s.service.cancelSession sessionId with
      | .ok (some session) =>
        let cancelled := DiscoveryService.cancelledUpdate sessionId session 0 s.now
        let call := if session.phase == .pending then Call.cancelPending cancelled else .cancelActive cancelled
        some { s with calls := call :: s.calls }
      | .ok none | .error _ => some s
  | .cleanupOldSessions maxAgeHours =>
    if s.finishing.isSome then none
    else some { s with service := s.service.cleanupOldSessions s.now maxAgeHours }
  | .cleanupStalledSessions stalled =>
    if s.finishing.isSome || !stalled.isPerm (s.service.stalledSessions s.now) then none
    else if stalled.isEmpty then some s
    else some { s with calls := .cleanupStalled s.now stalled stalled :: s.calls }
  | .getPendingWork daemonId =>
    if s.finishing.isSome then none
    else if s.service.hasActiveSessionForDaemon daemonId then some s
    else some { s with calls := .workCheck daemonId :: s.calls }
  | .pullCancellation daemonId =>
    some { s with service := (s.service.pullCancellationForDaemon daemonId).2 }
  | .resume i saved =>
    match s.calls[i]? with
    | some call => resume { s with calls := s.calls.eraseIdx i } saved call
    | none => none

end Sessions

end Netvisor
