/-
`DiscoveryService`: the maps of discovery sessions and what each of its
lock-held sections does to them.

An operation that gives its locks up and takes others later is split where it
does so. `Netvisor.Discovery.Sessions` puts the sections together and lets
them interleave.
-/
import Netvisor.Discovery.Types
import Netvisor.Lib.Assoc

namespace Netvisor

/-- The maps of the service, the rows it stored, and what it sent. -/
structure DiscoveryService where
  sessions : Assoc Uuid DiscoveryUpdatePayload := ∅
  daemonSessions : Assoc Uuid (List Uuid) := ∅
  daemonPullCancellations : Assoc Uuid (Bool × Uuid) := ∅
  sessionLastUpdated : Assoc Uuid DateTime := ∅
  discoveries : List Discovery := []
  /-- Discovery events on the event bus, newest first. -/
  events : List DiscoveryUpdatePayload := []
  /-- What `update_tx` was sent, newest first. -/
  updates : List DiscoveryUpdatePayload := []

/-- Why `cancelSession` refuses. -/
inductive CancelError
  | notFound (sessionId : Uuid)
  | starting
deriving DecidableEq, Repr

def CancelError.message : CancelError → String
  | notFound sessionId => "Session '" ++ toString sessionId ++ "' not found"
  | starting => "Session is starting on daemon. Please try again in a moment."

/-- A terminal update between its event and the repair of the queue, with the
daemon and network its session had before the update overwrote it. -/
structure Finishing where
  session : DiscoveryUpdatePayload
  daemonId : Uuid
  networkId : Uuid
deriving DecidableEq, Repr

def minutes (n : Int) : Int := n * 60 * 1000000000

def hours (n : Int) : Int := minutes (n * 60)

def stallThreshold : Int := minutes 5

namespace DiscoveryService

variable (s : DiscoveryService)

/-! ## Reading the maps -/

def getSession (sessionId : Uuid) : Option DiscoveryUpdatePayload := s.sessions.lookup sessionId

def queue (daemonId : Uuid) : List Uuid := s.daemonSessions.getD daemonId []

def lastUpdated (sessionId : Uuid) : Option DateTime := s.sessionLastUpdated.lookup sessionId

def cancellation (daemonId : Uuid) : Option (Bool × Uuid) := s.daemonPullCancellations.lookup daemonId

/-- The session is stored and takes its daemon. -/
def isActive (sessionId : Uuid) : Bool :=
  match s.getSession sessionId with
  | some session => session.phase.isActive
  | none => false

/-- The pending sessions of a daemon, in queue order. -/
def getSessionsForDaemon (daemonId : Uuid) : List DiscoveryUpdatePayload :=
  ((s.queue daemonId).filterMap s.getSession).filter (·.phase == .pending)

def hasActiveSessionForDaemon (daemonId : Uuid) : Bool := (s.queue daemonId).any s.isActive

/-! ## Writing one map -/

def setSession (session : DiscoveryUpdatePayload) : DiscoveryService :=
  { s with sessions := s.sessions.insert session.sessionId session }

def removeSession (sessionId : Uuid) : DiscoveryService :=
  { s with sessions := s.sessions.erase sessionId }

def setPhase (sessionId : Uuid) (phase : DiscoveryPhase) : DiscoveryService :=
  { s with sessions := s.sessions.modify sessionId fun session => { session with phase } }

def enqueue (daemonId sessionId : Uuid) : DiscoveryService :=
  { s with daemonSessions := s.daemonSessions.insert daemonId (s.queue daemonId ++ [sessionId]) }

def dequeue (daemonId sessionId : Uuid) : DiscoveryService :=
  { s with daemonSessions := s.daemonSessions.modify daemonId (List.filter (· != sessionId)) }

def setCancellation (daemonId sessionId : Uuid) : DiscoveryService :=
  { s with daemonPullCancellations := s.daemonPullCancellations.insert daemonId (true, sessionId) }

def clearCancellation (daemonId : Uuid) : DiscoveryService :=
  { s with daemonPullCancellations := s.daemonPullCancellations.erase daemonId }

def touch (sessionId : Uuid) (now : DateTime) : DiscoveryService :=
  { s with sessionLastUpdated := s.sessionLastUpdated.insert sessionId now }

def forget (sessionId : Uuid) : DiscoveryService :=
  { s with sessionLastUpdated := s.sessionLastUpdated.erase sessionId }

/-- Store the row of a finished session under a new id, or log that the storage failed. -/
def createHistorical (session : DiscoveryUpdatePayload) (name : String) (now : DateTime) (saved : Option Uuid) :
    DiscoveryService :=
  match saved with
  | some id =>
    let row : Discovery :=
      { id
        createdAt := session.startedAt.getD now
        updatedAt := now
        base :=
          { daemonId := session.daemonId
            networkId := session.networkId
            name
            discoveryType := session.discoveryType
            runType := .historical session } }
    { s with discoveries := row :: s.discoveries }
  | none => s

def publishDiscovery (event : DiscoveryUpdatePayload) : DiscoveryService := { s with events := event :: s.events }

def send (update : DiscoveryUpdatePayload) : DiscoveryService := { s with updates := update :: s.updates }

/-! ## `start_session` -/

/-- The payload of a new session, its SNMP credentials filled in. -/
def sessionPayload (discovery : Discovery) (sessionId : Uuid) (snmpCredentials : SnmpCredentialMapping) :
    DiscoveryUpdatePayload :=
  let discoveryType := match discovery.base.discoveryType with
    | .network subnetIds hostNamingFallback _ probeRawSocketPorts =>
      .network subnetIds hostNamingFallback snmpCredentials probeRawSocketPorts
    | discoveryType => discoveryType
  .new sessionId discovery.base.daemonId discovery.base.networkId discoveryType

/-- The last section: the session joins the queue, and is announced if the
queue was empty when it was read. -/
def startQueued (session : DiscoveryUpdatePayload) (daemonIsRunningDiscovery : Bool) : DiscoveryService :=
  let s := s.enqueue session.daemonId session.sessionId
  let s := if daemonIsRunningDiscovery then s else s.publishDiscovery session
  s.send session

/-! ## `update_session` -/

/-- Overwrite the stored session; a terminal one is announced and has to be finished. -/
def applyUpdate (update old : DiscoveryUpdatePayload) : DiscoveryService × Option Finishing :=
  let s := (s.send update).setSession update
  if update.phase.isTerminal then
    (s.publishDiscovery update, some { session := update, daemonId := old.daemonId, networkId := old.networkId })
  else (s, none)

/-- The first section. A session that is not stored is created from the
update, unless the update is terminal and the id was seen before. -/
def updateSession (update : DiscoveryUpdatePayload) (now : DateTime) : DiscoveryService × Option Finishing :=
  let alreadySeen := (s.lastUpdated update.sessionId).isSome
  let s := s.touch update.sessionId now
  match s.getSession update.sessionId with
  | some old => s.applyUpdate update old
  | none =>
    if update.phase.isTerminal && alreadySeen then (s, none)
    else ((s.enqueue update.daemonId update.sessionId).setSession update).applyUpdate update update

/-- The head of the queue, made pending. -/
def advanceQueue (daemonId : Uuid) : DiscoveryService × Option DiscoveryUpdatePayload :=
  match (s.queue daemonId).head? with
  | some next => (s.setPhase next .pending, s.getSession next)
  | none => (s, none)

/-- Record a finished session, remove it and move its queue on. -/
def finishSession (session : DiscoveryUpdatePayload) (now : DateTime) (saved : Option Uuid) :
    DiscoveryService × Option DiscoveryUpdatePayload :=
  let s := s.clearCancellation session.daemonId
  let s := s.createHistorical session session.discoveryType.display now saved
  let s := s.dequeue session.daemonId session.sessionId
  let advanced := s.advanceQueue session.daemonId
  (advanced.1.removeSession session.sessionId, advanced.2)

/-- The rest of a terminal update, `sessions` locked until the next session is announced. -/
def finishUpdate (f : Finishing) (now : DateTime) (saved : Option Uuid) : DiscoveryService :=
  match s.finishSession f.session now saved with
  | (s, some next) => s.publishDiscovery (.new next.sessionId f.daemonId f.networkId next.discoveryType)
  | (s, none) => s

/-! ## `cancel_session` -/

/-- The session to act on: none if it is over already. -/
def cancelSession (sessionId : Uuid) : Except CancelError (Option DiscoveryUpdatePayload) :=
  match s.getSession sessionId with
  | none => .error (.notFound sessionId)
  | some session =>
    match session.phase with
    | .pending => .ok (some session)
    | .starting => .error .starting
    | .started | .scanning => .ok (some session)
    | .complete | .failed | .cancelled => .ok none

def cancelledUpdate (sessionId : Uuid) (session : DiscoveryUpdatePayload) (progress : BitVec 8) (now : DateTime) :
    DiscoveryUpdatePayload :=
  { session with sessionId, phase := .cancelled, progress, error := none, finishedAt := some now }

def cancelPending (cancelled : DiscoveryUpdatePayload) : DiscoveryService :=
  ((s.removeSession cancelled.sessionId).dequeue cancelled.daemonId cancelled.sessionId).send cancelled

def requestCancellation (cancelled : DiscoveryUpdatePayload) : DiscoveryService :=
  (s.publishDiscovery cancelled).setCancellation cancelled.daemonId cancelled.sessionId

/-- `cancel_session` with nothing between its sections. -/
def cancelAlone (sessionId : Uuid) (now : DateTime) : Except CancelError DiscoveryService :=
  match s.cancelSession sessionId with
  | .ok (some session) =>
    let cancelled := cancelledUpdate sessionId session 0 now
    .ok (if session.phase == .pending then s.cancelPending cancelled else s.requestCancellation cancelled)
  | .ok none => .ok s
  | .error e => .error e

/-! ## `cleanup_old_sessions` -/

def oldSessions (cutoff : DateTime) : List Uuid :=
  (s.sessions.entries.filter fun e => match e.2.finishedAt with
    | some finishedAt => decide (finishedAt < cutoff)
    | none => false).map (·.1)

def removeOld (sessionId : Uuid) : DiscoveryService :=
  match s.getSession sessionId with
  | some session =>
    ((s.removeSession sessionId).clearCancellation session.daemonId).dequeue session.daemonId session.sessionId
  | none => s

def cleanupOldSessions (now : DateTime) (maxAgeHours : Int) : DiscoveryService :=
  (s.oldSessions (now - hours maxAgeHours)).foldl removeOld s

/-! ## `cleanup_stalled_sessions` -/

/-- No sign of life for longer than the threshold. -/
def isStalled (now : DateTime) (sessionId : Uuid) (session : DiscoveryUpdatePayload) : Bool :=
  !session.phase.isTerminal &&
    match s.lastUpdated sessionId with
    | some lastUpdateTime => decide (now - lastUpdateTime > stallThreshold)
    | none =>
      match session.startedAt with
      | some startedAt => decide (now - startedAt > stallThreshold)
      | none => false

/-- The first pass. -/
def stalledSessions (now : DateTime) : List DiscoveryUpdatePayload :=
  (s.sessions.entries.filter fun e => s.isStalled now e.1 e.2).map (·.2)

/-- Clear the cancellation of a daemon if it is for the session. -/
def dropCancellation (daemonId sessionId : Uuid) : DiscoveryService :=
  match s.cancellation daemonId with
  | some (_, cancelSessionId) => if cancelSessionId == sessionId then s.clearCancellation daemonId else s
  | none => s

/-- One session of the third pass. -/
def failStalled (now : DateTime) (saved : Uuid → Option Uuid) (stalled : DiscoveryUpdatePayload) :
    DiscoveryService :=
  match s.getSession stalled.sessionId with
  | some session =>
    let s := s.removeSession stalled.sessionId
    let failed : DiscoveryUpdatePayload :=
      { session with
        phase := .failed
        error := some "Session stalled - no updates received from daemon for more than 5 minutes"
        finishedAt := some now }
    let s := s.dequeue session.daemonId session.sessionId
    let s := s.forget session.sessionId
    let s := s.send failed
    let s := s.dropCancellation session.daemonId session.sessionId
    s.createHistorical failed "Discovery Run (Stalled)" now (saved session.sessionId)
  | none => s

/-- Drop the time stamps of removed sessions once they are old enough. -/
def evictTombstones (now : DateTime) : DiscoveryService :=
  { s with sessionLastUpdated := s.sessionLastUpdated.filter fun sessionId ts =>
      (s.getSession sessionId).isSome || decide (now - ts < stallThreshold) }

/-- The third pass. -/
def removeStalled (now : DateTime) (saved : Uuid → Option Uuid) (stalled : List DiscoveryUpdatePayload) :
    DiscoveryService :=
  (stalled.foldl (fun s => s.failStalled now saved) s).evictTombstones now

/-- The three passes with nothing between them. -/
def cleanupStalledSessions (now : DateTime) (saved : Uuid → Option Uuid) : DiscoveryService :=
  match s.stalledSessions now with
  | [] => s
  | stalled =>
    let s := stalled.foldl
      (fun s session => s.requestCancellation (cancelledUpdate session.sessionId session session.progress now)) s
    s.removeStalled now saved stalled

/-! ## Requests of daemons -/

def transitionSessionToStarting (sessionId : Uuid) : DiscoveryService :=
  match s.getSession sessionId with
  | some session => if session.phase == .pending then s.setPhase sessionId .starting else s
  | none => s

def pullCancellationForDaemon (daemonId : Uuid) : (Bool × Uuid) × DiscoveryService :=
  ((s.cancellation daemonId).getD (false, Uuid.nil), s.clearCancellation daemonId)

end DiscoveryService

end Netvisor
