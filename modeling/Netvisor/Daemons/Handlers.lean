/-
The endpoints daemons call about themselves. Their key gives the network; the
daemon is the one of the path, or of the body when it registers.
-/
import Netvisor.Daemons.Registration

namespace Netvisor

structure DaemonHeartbeatPayload where
  url : String := ""
  name : String := ""
  mode : DaemonMode := .daemonPoll
deriving DecidableEq, Repr

namespace DaemonHandlers

/-- The daemon of the path, which has to be of the network of the key. -/
def pathDaemon (entity : AuthenticatedEntity) (id : Uuid) : DaemonStore Daemon := do
  authorize .isDaemon entity
  let daemonNetworkId := entity.networkIds.headD Uuid.nil
  match (← get).tables.daemons.get id with
  | none => throw (.entityNotFound "Daemon" id)
  | some daemon =>
    if daemon.networkId != daemonNetworkId then throw (.entityAccessDenied "Daemon" id) else return daemon

def registerDaemon [EmailRules] [SemverRules] (entity : AuthenticatedEntity) (request : DaemonRegistrationRequest) :
    DaemonStore DaemonRegistrationResponse := do
  authorize .isDaemon entity
  DaemonService.processRegistration request

def daemonStartup [SemverRules] (entity : AuthenticatedEntity) (id : Uuid) (daemonVersion : Version) :
    DaemonStore ServerCapabilities := do
  let _ ← pathDaemon entity id
  DaemonService.processStartup id daemonVersion

def updateCapabilities (entity : AuthenticatedEntity) (id : Uuid) (updatedCapabilities : DaemonCapabilities) :
    DaemonStore Unit := do
  let _ ← pathDaemon entity id
  DaemonService.processCapabilities id updatedCapabilities

/-- The session to run next, and whether to cancel the one that runs. -/
def receiveWorkRequest (entity : AuthenticatedEntity) (daemonId : Uuid) (status : DaemonStatus) :
    DaemonStore (Option DiscoveryUpdatePayload × Bool) := do
  let daemon ← pathDaemon entity daemonId
  if daemon.standby then throw (.coded 403 .daemonStandby)
  else
    DaemonService.processStatus daemonId status
    let nextSession ← DaemonService.getPendingWork daemonId
    let cancellation ← DaemonService.getPendingCancellation daemonId
    return (nextSession, cancellation.isSome)

/-- Of daemons older than the work requests, which do not tell their version. -/
def receiveHeartbeat (entity : AuthenticatedEntity) (id : Uuid) (request : DaemonHeartbeatPayload) :
    DaemonStore Unit := do
  let _ ← pathDaemon entity id
  DaemonService.processStatus id { url := some request.url, name := request.name, mode := request.mode }

end DaemonHandlers

end Netvisor
