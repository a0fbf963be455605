/-
`DaemonService`: what daemons say of themselves, and registering one, which
sets up a host for it and its first discoveries.

How a version is parsed, and which of two is older, is left to `SemverRules`.
-/
import Netvisor.Daemons.Tables
import Netvisor.Hosts.Service

namespace Netvisor

class SemverRules where
  parse : String → Option Version
  lt : Version → Version → Bool

/-- The tables and the discovery sessions, as the endpoints of daemons see them. -/
structure DaemonServer where
  tables : Tables := {}
  discovery : DiscoveryService := {}

abbrev DaemonStore := EStateM ApiError DaemonServer

/-! ## Requests -/

structure DaemonRegistrationRequest where
  daemonId : Uuid
  networkId : Uuid
  name : String := ""
  /-- Ignored. -/
  url : Option String := none
  mode : DaemonMode := .daemonPoll
  capabilities : DaemonCapabilities := {}
  userId : Uuid := Uuid.nil
  version : Option String := none
deriving DecidableEq, Repr

/-- What a daemon says of itself, in a heartbeat or asking for work. -/
structure DaemonStatus where
  /-- Ignored. -/
  url : Option String := none
  name : String := ""
  mode : DaemonMode := .daemonPoll
  version : Option Version := none
deriving DecidableEq, Repr

/-! ## Versions -/

def Version.display (v : Version) : String :=
  toString v.major ++ "." ++ toString v.minor ++ "." ++ toString v.patch ++ if v.pre == "" then "" else "-" ++ v.pre

inductive DeprecationSeverity
  | info
  | warning
  | critical
deriving DecidableEq, Repr

structure DeprecationWarning where
  message : String
  sunsetDate : Option String := none
  severity : DeprecationSeverity
deriving DecidableEq, Repr

structure ServerCapabilities where
  serverVersion : Version
  minimumDaemonVersion : Version
  deprecationWarnings : List DeprecationWarning := []
deriving DecidableEq, Repr

namespace DaemonVersionPolicy

def minimumSupported : Version := { major := 0, minor := 12, patch := 0 }

/-- The version of the server, which is also the one it recommends. -/
def latest : Version := { major := 0, minor := 14, patch := 7 }

variable [SemverRules]

/-- The warnings of `evaluate_known`. -/
def warnings (v : Version) : List DeprecationWarning :=
  if SemverRules.lt v minimumSupported then
    [{ message := "Daemon " ++ v.display ++ " is deprecated. Update to " ++ latest.display ++ " or later."
       sunsetDate := some "2025-02-01"
       severity := .critical }]
  else if SemverRules.lt v latest then
    [{ message := "Daemon " ++ v.display ++ " is outdated. Update to " ++ latest.display ++ " for latest features."
       severity := .warning }]
  else []

def serverCapabilities (v : Version) : ServerCapabilities where
  serverVersion := latest
  minimumDaemonVersion := minimumSupported
  deprecationWarnings := warnings v

end DaemonVersionPolicy

structure DaemonRegistrationResponse where
  daemon : Daemon
  hostId : Uuid
  serverCapabilities : Option ServerCapabilities := none
deriving DecidableEq, Repr

/-! ## Statements -/

/-- `ApiError::from` an error that is none of the API itself. -/
def Error.toApiError : Error → ApiError
  | .validation message => .badRequest message
  | e => .internalError e.text

namespace DaemonStore

def inDb {α : Type} (p : Store α) : DaemonStore α := fun s =>
  match p s.tables.referred with
  | .ok a db => .ok a { s with tables := s.tables.left db }
  | .error e db => .error e.toApiError { s with tables := s.tables.left db }

def inAccounts {α : Type} (p : AccountStore α) : DaemonStore α := fun s =>
  match p s.tables.accounts with
  | .ok a accounts => .ok a { s with tables.accounts := accounts }
  | .error e accounts => .error e { s with tables.accounts := accounts }

end DaemonStore

open DaemonStore

/-! ## Discoveries -/

namespace DiscoveryService

/-- `Discovery::new`. -/
def newDiscovery (base : DiscoveryBase) : DaemonStore Discovery := do
  let id ← inDb newV4
  let now := (← get).tables.db.now
  return { id, createdAt := now, updatedAt := now, base }

/-- A nil id stands for a new one. -/
def orNew (discovery : Discovery) : DaemonStore Discovery :=
  if discovery.id == Uuid.nil then newDiscovery discovery.base else return discovery

/-- The network and the daemon of a discovery exist. -/
def references (tables : Tables) (discovery : Discovery) : Bool :=
  (tables.accounts.networks.get discovery.base.networkId).isSome &&
  (tables.daemons.get discovery.base.daemonId).isSome

def createDiscovery (discovery : Discovery) : DaemonStore Discovery := do
  let discovery ← orNew discovery
  let s ← get
  if s.discovery.discoveries.any fun d => d.id == discovery.id then throw (alreadyExists "discovery_pkey")
  else if !references s.tables discovery then throw (danglingReference "discovery")
  else
    set { s with discovery.discoveries := discovery :: s.discovery.discoveries }
    return discovery

/-- `start_session` with nothing between its sections. -/
def startSession (discovery : Discovery) : DaemonStore DiscoveryUpdatePayload := do
  let sessionId ← inDb newV4
  let s ← get
  let session := sessionPayload discovery sessionId (s.tables.buildCredentialsForDiscovery discovery.base.networkId)
  let daemonIsRunningDiscovery := !(s.discovery.queue discovery.base.daemonId).isEmpty
  set { s with discovery := (s.discovery.setSession session).startQueued session daemonIsRunningDiscovery }
  return session

end DiscoveryService

namespace DaemonService

instance : ToString Daemon where
  toString daemon := daemon.url ++ ": " ++ toString daemon.id

/-! ## Storage -/

/-- The network and the maintainer of a daemon without a linked key exist. -/
def references (tables : Tables) (daemon : Daemon) : Bool :=
  (tables.accounts.networks.get daemon.networkId).isSome && (tables.accounts.users.get daemon.userId).isSome

/-- A nil id stands for a new one. -/
def orNew (daemon : Daemon) : DaemonStore Daemon := do
  if daemon.id == Uuid.nil then
    let id ← inDb newV4
    let now := (← get).tables.db.now
    return { daemon with id, createdAt := now, updatedAt := now }
  else return daemon

/-- `CrudService::create`. -/
def create (daemon : Daemon) : DaemonStore Daemon := do
  let daemon ← orNew daemon
  let s ← get
  let daemons ← runStatement (insertInto "daemons" s.tables.daemons [] (references s.tables daemon) daemon)
  set { s with tables.daemons := daemons }
  return daemon

/-- `CrudService::update`, of a row that keeps what it refers to. -/
def update (daemon : Daemon) : DaemonStore Daemon := do
  let s ← get
  match s.tables.daemons.get daemon.id with
  | none => throw (.internalError ("Could not find " ++ toString daemon))
  | some _ =>
    set { s with tables.daemons := s.tables.daemons.update daemon }
    return daemon

/-- Change the daemon with the id, given the time. -/
def modifyDaemon (daemonId : Uuid) (change : DateTime → Daemon → Daemon) : DaemonStore Unit := do
  let s ← get
  match s.tables.daemons.get daemonId with
  | none => throw (.entityNotFound "Daemon" daemonId)
  | some daemon => let _ ← update (change s.tables.db.now daemon)

/-! ## Processing -/

def processStatus (daemonId : Uuid) (status : DaemonStatus) : DaemonStore Unit :=
  modifyDaemon daemonId fun now daemon =>
    { daemon with
      lastSeen := some now
      name := status.name
      mode := status.mode
      version := status.version <|> daemon.version }

def processCapabilities (daemonId : Uuid) (capabilities : DaemonCapabilities) : DaemonStore Unit :=
  modifyDaemon daemonId fun _ daemon => { daemon with capabilities }

def processStartup [SemverRules] (daemonId : Uuid) (version : Version) : DaemonStore ServerCapabilities := do
  modifyDaemon daemonId fun now daemon => { daemon with version := some version, lastSeen := some now }
  return DaemonVersionPolicy.serverCapabilities version

def getPendingWork (daemonId : Uuid) : DaemonStore (Option DiscoveryUpdatePayload) := do
  let s ← get
  if s.discovery.hasActiveSessionForDaemon daemonId then return none
  else
    match s.discovery.getSessionsForDaemon daemonId with
    | work :: _ =>
      set { s with discovery := s.discovery.transitionSessionToStarting work.sessionId }
      return some work
    | [] => return none

def getPendingCancellation (daemonId : Uuid) : DaemonStore (Option Uuid) := do
  let s ← get
  let ((hasCancellation, sessionId), discovery) := s.discovery.pullCancellationForDaemon daemonId
  set { s with discovery }
  return if hasCancellation then some sessionId else none

/-! ## Registration -/

/-- The organization a daemon registers with: the checks before anything is written. -/
def registrationOrganization (tables : Tables) (request : DaemonRegistrationRequest) : Except ApiError Organization :=
  match tables.accounts.networks.get request.networkId with
  | none => .error (.entityNotFound "Network" request.networkId)
  | some network =>
    match tables.accounts.organizations.get network.organizationId with
    | none => .error (.notFound "Organization not found")
    | some org =>
      if org.plan == some .demo then .error .demoModeBlocked
      else if request.mode == .daemonPoll && org.plan.any fun plan => !plan.features.daemonPoll then
        .error (.coded 403 (.billingFeatureNotAvailable "DaemonPoll"))
      else .ok org

def defaultRunType (isFreePlan : Bool) : RunType :=
  if isFreePlan then .adHoc none else .scheduled "0 0 0 * * *" none true

/-- Create one of the first discoveries of a daemon and start it. -/
def createDefaultJob (daemonId networkId : Uuid) (isFreePlan : Bool) (discoveryType : DiscoveryType) :
    DaemonStore Unit := do
  let discovery ← DiscoveryService.newDiscovery
    { discoveryType, runType := defaultRunType isFreePlan, name := discoveryType.display, daemonId, networkId }
  let created ← DiscoveryService.createDiscovery discovery
  let _ ← DiscoveryService.startSession created

def createDefaultDiscoveryJobs (daemonId networkId hostId : Uuid) (hasDockerSocket isFreePlan : Bool) :
    DaemonStore Unit := do
  createDefaultJob daemonId networkId isFreePlan (.selfReport hostId)
  if hasDockerSocket then createDefaultJob daemonId networkId isFreePlan (.docker hostId .bestService)
  createDefaultJob daemonId networkId isFreePlan (.network none .bestService {} false)

section

variable [EmailRules]

/-- The user of the request; daemons that name none are left to the first owner. -/
def maintainer (org : Organization) (userId : Uuid) : DaemonStore Uuid := do
  if userId == Uuid.nil then
    let owners ← inAccounts
      (UserService.getAll fun u => u.base.organizationId == org.id && u.base.permissions == .owner)
    return (owners.head?.map User.id).getD userId
  else return userId

/-- The host a daemon runs on, before anything is known of it. -/
def dummyHost (request : DaemonRegistrationRequest) : Host where
  base := { networkId := request.networkId, name := request.name, source := .discovery [] }

def registeredDaemon (request : DaemonRegistrationRequest) (hostId userId : Uuid) (version : Option Version)
    (now : DateTime) : Daemon where
  id := request.daemonId
  createdAt := now
  updatedAt := now
  hostId := hostId
  networkId := request.networkId
  lastSeen := some now
  capabilities := request.capabilities
  mode := request.mode
  name := request.name
  version := version
  userId := userId

/-- Store the daemon of a host and start its first discoveries. -/
def setUpDaemon (request : DaemonRegistrationRequest) (org : Organization) (version : Option Version)
    (hostId : Uuid) :
    DaemonStore Daemon := do
  let userId ← maintainer org request.userId
  let now := (← get).tables.db.now
  let daemon ← create (registeredDaemon request hostId userId version now)
  createDefaultDiscoveryJobs request.daemonId request.networkId hostId request.capabilities.hasDockerSocket
    (org.plan == some .free)
  return daemon

/-- Register a daemon under an id that is new. -/
def registerNew (request : DaemonRegistrationRequest) (org : Organization) (version : Option Version) :
    DaemonStore (Daemon × Uuid) := do
  let host ← inDb (Storable.new (dummyHost request))
  let hostResponse ← inDb (HostService.discoverHost none { host })
  let daemon ← setUpDaemon request org version hostResponse.id
  return (daemon, hostResponse.id)

/-- The daemon that registers again. -/
def reregistered (request : DaemonRegistrationRequest) (version : Option Version) (now : DateTime)
    (existing : Daemon) :
    Daemon :=
  { existing with
    capabilities := request.capabilities
    lastSeen := some now
    mode := request.mode
    name := request.name
    version := version <|> existing.version }

def processRegistration [SemverRules] (request : DaemonRegistrationRequest) :
    DaemonStore DaemonRegistrationResponse := do
  let s ← get
  let org ← runStatement (registrationOrganization s.tables request)
  let version := request.version.bind SemverRules.parse
  let serverCapabilities := version.map DaemonVersionPolicy.serverCapabilities
  match s.tables.daemons.get request.daemonId with
  | some existing =>
    let daemon ← update (reregistered request version s.tables.db.now existing)
    return { daemon, hostId := existing.hostId, serverCapabilities }
  | none =>
    let (daemon, hostId) ← registerNew request org version
    return { daemon, hostId, serverCapabilities }

end

end DaemonService

end Netvisor
