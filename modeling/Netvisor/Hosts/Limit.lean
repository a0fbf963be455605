/-
The host limit of a plan, and the requests that create hosts: by hand, and by
discoveries that daemons send or are polled for, one statement at a time.

The limit is checked when a host is created by hand, and by a user. The hosts
are counted that are on networks of the user, and the host is inserted later.
What follows the interfaces of a host writes neither hosts nor interfaces and is
left out.
-/
import Netvisor.Auth.Accounts
import Netvisor.Hosts.Creation
import Netvisor.Hosts.Duplicates
import Netvisor.Lib.Pool

namespace Netvisor

/-- The plans of the organizations. -/
class Plans where
  config : Uuid → PlanConfig

/-- What became of a discovery. This is no part of the database. -/
structure Discovered where
  request : DiscoveryHostRequest
  /-- What was stored when it was received. -/
  before : Db
  /-- The host as it is stored, and whether it was stored before. -/
  outcome : Except ApiError (Host × Bool)

structure HostTables where
  db : Db := {}
  organizations : Table Organization Organization.id := {}
  networks : Table Network Network.id := {}
  discovered : List Discovered := []

namespace HostTables

variable (s : HostTables) (organizationId : Uuid)

/-- The tables after a statement, without the time and the ids it had. -/
def left (db : Db) : HostTables := { s with db := { db with now := s.db.now, drawn := s.db.drawn } }

def inOrganization (networkId : Uuid) : Bool :=
  (s.networks.get networkId).any fun n => n.organizationId == organizationId

/-- The hosts on all networks of the organization. -/
def hostCount : Nat := s.db.hosts.rows.countP fun h => s.inOrganization organizationId h.base.networkId

end HostTables

/-- What a statement does. -/
inductive HostStatement
  | other
  /-- Save a host; `counted` are those there were when the limit was checked, if it was. -/
  | save (host : Host) (counted : Option Nat)
deriving DecidableEq, Repr

abbrev HostProcess := Process HostStatement ApiError HostTables

/-- The time of a statement, and the ids it draws. -/
structure Draw where
  now : DateTime := 0
  drawn : List Uuid
  nonnil : drawn.headD Uuid.nil ≠ Uuid.nil := by decide

def Draw.supply (draw : Draw) (db : Db) : Db := { db with now := draw.now, drawn := draw.drawn }

namespace HostHandlers

open HostDiscovery (Lookup)
open HostService (hostsOf)
open Process (attempt fail query statement)

/-- `ApiError::from` an error of a service. -/
def toApiError : Error → ApiError
  | .validation message => .badRequest message
  | e => .internalError e.text

def inDb {α : Type} (draw : Draw) (p : Store α) : EStateM ApiError HostTables α := fun s =>
  match p (draw.supply s.db) with
  | .ok a db => .ok a (s.left db)
  | .error e db => .error (toApiError e) (s.left db)

/-! ## Creating a host -/

/-- The first host of the network that has one of the interfaces. -/
def findMatchingHostByInterfaces (networkId : Uuid) (incomingInterfaces : List Interface) :
    HostProcess (Option Host) :=
  if incomingInterfaces.isEmpty then return none
  else do
    let hosts ← query .other fun s => hostsOf s.db networkId
    if hosts.isEmpty then return none
    else
      query .other fun s => hosts.find? fun host =>
        incomingInterfaces.any fun incoming => (s.db.interfacesOf host.id).any fun existing => incoming.eq existing

/-- No caller gives `create_with_children` a limit. -/
def checkHostLimit (networkId : Uuid) : Option Nat → HostProcess Unit
  | none => return ()
  | some limit => do
    let currentHosts ← query .other fun s => (hostsOf s.db networkId).length
    if currentHosts ≥ limit then
      fail (.internalError ("Host limit reached (" ++ toString currentHosts ++ "/" ++ toString limit ++
        "). Upgrade your plan for unlimited hosts."))
    else return ()

/-- Save the host; the result also says whether it is stored already. -/
def save (host : Host) (counted : Option Nat) (draw : Draw) : HostProcess (Host × Bool) :=
  statement (.save host counted) do
    let stored := ((← get).db.hosts.get host.id).isSome
    let host ← inDb draw (HostService.create host)
    return (host, stored)

/-- The host of a request: a new one, or for a discovery the one that has its interfaces. -/
def createHostRow (conflictBehavior : ConflictBehavior) (hostLimit counted : Option Nat)
    (request : DiscoveryHostRequest)
    (draw : Draw) : HostProcess (Host × Bool) := do
  match ← findMatchingHostByInterfaces request.host.base.networkId request.interfaces, conflictBehavior with
  | some existing, .error =>
    fail (.badRequest ("A host with matching interfaces already exists: '" ++ existing.base.name ++ "' (id: " ++
      toString existing.id ++ "). Edit the existing host instead of creating a new one."))
  | some existing, .upsert => save { request.host with id := existing.id } counted draw
  | none, _ =>
    checkHostLimit request.host.base.networkId hostLimit
    save request.host counted draw

/-- Whether one of the lookups finds the interface. -/
def finds (i : Interface) : List Lookup → HostProcess Bool
  | [] => return false
  | lookup :: lookups => do
    if ← query .other fun s => lookup.finds s.db i then return true
    else finds i lookups

def saveInterface (conflictBehavior : ConflictBehavior) (host : Host) (i : Interface) (draw : Draw) :
    HostProcess Unit := do
  let i := { i with base.hostId := host.id }
  if ← finds i (if conflictBehavior = .upsert then Lookup.byId.remaining else []) then return ()
  else
    let _ ← statement .other (inDb draw (CrudService.create i))
    return ()

def saveInterfaces (conflictBehavior : ConflictBehavior) (host : Host) (interfaces : List Interface)
    (draws : Nat → Draw) :
    HostProcess Unit :=
  interfaces.zipIdx.forM fun (i, n) => saveInterface conflictBehavior host i (draws n)

/-! ## By hand -/

def authorized (p : PermissionRequirement) (entity : AuthenticatedEntity) : HostProcess Unit :=
  match p.authorized entity with
  | some e => fail e
  | none => return ()

def validateNetworkAccess (networkId : Uuid) (networkIds : List Uuid) : HostProcess Unit :=
  if networkIds.contains networkId then return () else fail (.entityAccessDenied "Network" networkId)

section

variable [Plans]

/-- The limit of the plan of an organization. -/
def planLimit (s : HostTables) (organizationId : Uuid) : Option Nat :=
  (s.organizations.get organizationId).bind fun organization =>
    organization.plan.bind fun _ => (Plans.config organizationId).includedHosts

/-- The hosts on the networks of the caller, if they are limited. -/
def checkPlan (entity : AuthenticatedEntity) : HostProcess (Option Nat) :=
  match entity.organizationId with
  | none => return none
  | some organizationId => do
    match ← query .other fun s => planLimit s organizationId with
    | none => return none
    | some limit =>
      let currentHosts ← query .other fun s =>
        (s.db.hosts.select (fun h => entity.networkIds.contains h.base.networkId) Host.createdAt).length
      if currentHosts ≥ limit then fail (.coded 403 (.billingHostLimitReached limit))
      else return some currentHosts

/-- An interface whose subnet is on the network, or missing. -/
def checkSubnet (networkId : Uuid) (i : InterfaceInput) : HostProcess Unit := do
  match ← query .other fun s => s.db.subnets.get i.subnetId with
  | none => return ()
  | some subnet =>
    if subnet.base.networkId != networkId then
      fail (.badRequest ("Host is on network " ++ toString networkId ++
        ", cannot have an interface with a subnet \"" ++
        subnet.base.name ++ "\" which is on network " ++ toString subnet.base.networkId ++ "."))
    else return ()

/-- `POST /hosts`. -/
def createHost (entity : AuthenticatedEntity) (request : CreateHostRequest) (draws : Nat → Draw) :
    HostProcess Unit := do
  authorized (.or .member .isDaemon) entity
  validateNetworkAccess request.networkId entity.networkIds
  if (← query .other fun s => s.networks.get request.networkId).isNone then
    fail (.badRequest ("Network " ++ toString request.networkId ++ " not found"))
  let counted ← checkPlan entity
  request.interfaces.forM (checkSubnet request.networkId)
  let host ← statement .other (inDb (draws 0) request.withChildren)
  let (created, _) ← createHostRow .error none counted host (draws 1)
  saveInterfaces .error created host.interfaces fun n => draws (n + 2)

end

/-! ## Discovery -/

def discoverHost (hostLimit : Option Nat) (request : DiscoveryHostRequest) (draws : Nat → Draw) :
    HostProcess Unit := do
  let before ← query .other fun s => s.db
  let outcome ← attempt (createHostRow .upsert hostLimit none request (draws 0))
  statement .other (modify fun s => { s with discovered := s.discovered ++ [{ request, before, outcome }] })
  match outcome with
  | .error e => fail e
  | .ok (host, _) => saveInterfaces .upsert host request.interfaces fun n => draws (n + 1)

/-- `POST /hosts`, as older daemons use it. -/
def createHostLegacy (entity : AuthenticatedEntity) (request : DiscoveryHostRequest) (draws : Nat → Draw) :
    HostProcess Unit := do
  authorized (.or .member .isDaemon) entity
  match entity with
  | .daemon .. =>
    validateNetworkAccess request.host.base.networkId entity.networkIds
    discoverHost none request draws
  | _ => fail (.badRequest "Invalid request format. Please use the CreateHostRequest format.")

/-- A host that fails leaves the others. -/
def processDiscoveryEntities (hostLimit : Option Nat) (hosts : List (DiscoveryHostRequest × (Nat → Draw))) :
    HostProcess Unit :=
  hosts.forM fun (request, draws) => do
    let _ ← attempt (discoverHost hostLimit request draws)

/-- `POST /hosts/discovery`. -/
def createHostDiscovery (entity : AuthenticatedEntity) (request : DiscoveryHostRequest) (draws : Nat → Draw) :
    HostProcess Unit := do
  authorized .isDaemon entity
  match entity.networkIds.head? with
  | none => fail (.forbidden "Daemon has no network assignment")
  | some daemonNetworkId =>
    if request.host.base.networkId != daemonNetworkId then
      fail (.forbidden "Daemon cannot create hosts on networks it's not assigned to")
    else processDiscoveryEntities none [(request, draws)]

/-! ## Requests -/

inductive HostRequest
  | create (entity : AuthenticatedEntity) (request : CreateHostRequest) (draws : Nat → Draw)
  | createLegacy (entity : AuthenticatedEntity) (request : DiscoveryHostRequest) (draws : Nat → Draw)
  | discovery (entity : AuthenticatedEntity) (request : DiscoveryHostRequest) (draws : Nat → Draw)
  /-- A daemon is polled for what it has discovered. -/
  | polled (hosts : List (DiscoveryHostRequest × (Nat → Draw)))

/-- Whoever makes the request is of the organization, if of any. -/
def HostRequest.Within (organizationId : Uuid) : HostRequest → Prop
  | create entity .. | createLegacy entity .. | discovery entity .. =>
    ∀ id ∈ entity.organizationId, id = organizationId
  | polled _ => True

variable [Plans]

def handle : HostRequest → HostProcess Unit
  | .create entity request draws => createHost entity request draws
  | .createLegacy entity request draws => createHostLegacy entity request draws
  | .discovery entity request draws => createHostDiscovery entity request draws
  | .polled hosts => processDiscoveryEntities none hosts

/-- What is stored besides hosts and interfaces, and what hosts refer to, becomes that of `db`. -/
def writeRest (db : Db) (s : HostTables) : HostTables :=
  { s with
    db :=
      { db with
        hosts := s.db.hosts
        interfaces := s.db.interfaces
        networks := s.db.networks
        snmpCredentials := s.db.snmpCredentials } }

/-- Requests within one organization, in any interleaving. -/
def step (organizationId : Uuid) : Pool HostStatement ApiError HostTables →
    Pool.Action { r : HostRequest // r.Within organizationId } Db → Option (Pool HostStatement ApiError HostTables) :=
  Pool.step (fun _ r => handle r.1) writeRest

end HostHandlers

end Netvisor
