/-
`DaemonDiscoveryService`: the session a daemon runs, the updates it reports to
the server, and the terminal payload it keeps for a server that polls.
-/
import Netvisor.Daemon.Buffer
import Netvisor.Discovery.Types

namespace Netvisor

structure DiscoverySessionInfo where
  sessionId : Uuid
  networkId : Uuid
  daemonId : Uuid
  startedAt : Option DateTime
  discoveryType : DiscoveryType
deriving DecidableEq, Repr

structure DiscoverySession where
  info : DiscoverySessionInfo
  gatewayIps : List String := []
  lastProgress : BitVec 8 := 0
deriving DecidableEq, Repr

structure DiscoverySessionUpdate where
  phase : DiscoveryPhase
  progress : BitVec 8
  error : Option String := none
  finishedAt : Option DateTime := none
deriving DecidableEq, Repr

def DiscoverySessionUpdate.scanning (progress : BitVec 8) : DiscoverySessionUpdate :=
  { phase := .scanning, progress := if progress ≤ 100 then progress else 100 }

def DiscoveryUpdatePayload.fromStateAndUpdate (discoveryType : DiscoveryType) (info : DiscoverySessionInfo)
    (update : DiscoverySessionUpdate) : DiscoveryUpdatePayload where
  sessionId := info.sessionId
  discoveryType := discoveryType
  networkId := info.networkId
  daemonId := info.daemonId
  phase := update.phase
  progress := update.progress
  error := update.error
  startedAt := info.startedAt
  finishedAt := update.finishedAt

def DiscoveryCriticalError.resourceExhaustion : String :=
  "Resource exhaustion during scan: too many open files - CONCURRENT_SCANS is likely too high for this system. " ++
    "Check readme for troubleshooting."

/-- One of the texts occurs in the error, whatever the case of its letters. -/
def DiscoveryCriticalError.fromErrorString (error : String) : Option String :=
  let lowerError := error.toLower
  if ["too many open files", "file descriptor limit", "cannot allocate memory", "out of memory", "os error 24",
      "emfile"].any fun text => (lowerError.splitOn text).length > 1
  then some resourceExhaustion
  else none

/-- The state of the service, and the updates it sent to the server, newest first. -/
structure DaemonDiscoveryService where
  currentSession : Option DiscoverySession := none
  terminalPayload : Option DiscoveryUpdatePayload := none
  entityBuffer : EntityBuffer := {}
  reported : List DiscoveryUpdatePayload := []

namespace DaemonDiscoveryService

variable (d : DaemonDiscoveryService)

/-! ## What the server is told -/

def scanningPayload (session : DiscoverySession) : DiscoveryUpdatePayload where
  sessionId := session.info.sessionId
  daemonId := session.info.daemonId
  networkId := session.info.networkId
  phase := .scanning
  discoveryType := session.info.discoveryType
  progress := session.lastProgress
  startedAt := session.info.startedAt

/-- The first half of `get_progress`: nothing if no session is active. -/
def activeProgress : Option DiscoveryUpdatePayload := d.currentSession.map scanningPayload

/-- `get_progress` with nothing between its two reads. -/
def getProgress : Option DiscoveryUpdatePayload := d.activeProgress <|> d.terminalPayload

def clearTerminalPayload : DaemonDiscoveryService := { d with terminalPayload := none }

/-! ## Starting and finishing a session -/

def setSession (session : DiscoverySession) : DaemonDiscoveryService := { d with currentSession := some session }

def report (payload : DiscoveryUpdatePayload) : DaemonDiscoveryService := { d with reported := payload :: d.reported }

/-- How a session ended, by the result of its run and the state of its token. -/
def terminalUpdate (session : DiscoverySession) (discoveryResult : Except String Unit) (isCancelled : Bool)
    (now : DateTime) : DiscoverySessionUpdate :=
  match discoveryResult with
  | .ok () => { phase := .complete, progress := 100, finishedAt := some now }
  | .error e =>
    if isCancelled then { phase := .cancelled, progress := session.lastProgress, finishedAt := some now }
    else
      { phase := .failed
        progress := session.lastProgress
        error := some ((DiscoveryCriticalError.fromErrorString e).getD ("Critical error: " ++ e))
        finishedAt := some now }

def storeTerminal (payload : DiscoveryUpdatePayload) : DaemonDiscoveryService :=
  { d with terminalPayload := some payload }

def clearBuffer : DaemonDiscoveryService := { d with entityBuffer := d.entityBuffer.clearAll }

/-- The current session is dropped if it is still the finished one. -/
def clearSession (sessionId : Uuid) : DaemonDiscoveryService :=
  { d with currentSession := d.currentSession.filter (·.info.sessionId != sessionId) }

theorem terminalUpdate_isTerminal {session : DiscoverySession} {discoveryResult : Except String Unit}
    {isCancelled : Bool} {now : DateTime} :
    (terminalUpdate session discoveryResult isCancelled now).phase.isTerminal = true := by
  unfold terminalUpdate
  cases discoveryResult with
  | ok _ => rfl
  | error e => cases isCancelled <;> rfl

end DaemonDiscoveryService

end Netvisor
