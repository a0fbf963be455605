/-
Discoveries, their sessions and the phases a session goes through.
-/
import Netvisor.Entities

namespace Netvisor

inductive DiscoveryPhase
  /-- Set by the server; the later phases are set by the daemon. -/
  | pending
  | starting
  | started
  | scanning
  | complete
  | failed
  | cancelled
deriving DecidableEq, Repr

namespace DiscoveryPhase

def isTerminal : DiscoveryPhase → Bool
  | complete | cancelled | failed => true
  | _ => false

/-- Neither terminal nor pending: the daemon is taken. -/
def isActive (p : DiscoveryPhase) : Bool := !p.isTerminal && p != pending

end DiscoveryPhase

/-- The state of a session, as daemons report it and the server keeps it. -/
structure DiscoveryUpdatePayload where
  sessionId : Uuid
  daemonId : Uuid
  networkId : Uuid
  phase : DiscoveryPhase := .pending
  discoveryType : DiscoveryType := .selfReport Uuid.nil
  progress : BitVec 8 := 0
  error : Option String := none
  startedAt : Option DateTime := none
  finishedAt : Option DateTime := none
deriving DecidableEq, Repr

def DiscoveryUpdatePayload.new (sessionId daemonId networkId : Uuid) (discoveryType : DiscoveryType) :
    DiscoveryUpdatePayload :=
  { sessionId, daemonId, networkId, discoveryType }

inductive RunType
  | scheduled (cronSchedule : String) (lastRun : Option DateTime) (enabled : Bool)
  | historical (results : DiscoveryUpdatePayload)
  | adHoc (lastRun : Option DateTime)
deriving DecidableEq, Repr

structure DiscoveryBase where
  discoveryType : DiscoveryType
  runType : RunType
  name : String
  daemonId : Uuid
  networkId : Uuid
  tags : List Uuid := []
deriving DecidableEq, Repr

structure Discovery where
  id : Uuid
  createdAt : DateTime
  updatedAt : DateTime
  base : DiscoveryBase
deriving DecidableEq, Repr

def DiscoveryType.display : DiscoveryType → String
  | selfReport _ => "Self Report"
  | network _ _ _ _ => "Network Discovery"
  | docker _ _ => "Docker Discovery"

/-- The session a historical row records. -/
def Discovery.results (d : Discovery) : Option DiscoveryUpdatePayload :=
  match d.base.runType with
  | .historical results => some results
  | _ => none

end Netvisor
