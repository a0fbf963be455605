/-
`HostService`: creating a host with its children, from a request of the API or
from a discovery, and what a discovery adds to that.

Children get the ids the database has for them, so the bindings of the services
are rewritten to the interfaces and ports that came out. A service whose port is
taken by another is dropped, and what is left of its bindings goes to the
"Unclaimed Open Ports" service of the host.
-/
import Netvisor.Hosts.Api
import Netvisor.Services.Service

namespace Netvisor

inductive ConflictBehavior
  | error
  | upsert
deriving DecidableEq, Repr

/-! ## Texts -/

namespace IpAddr

def displayV4 (addr : Nat) : String :=
  ".".intercalate ([24, 16, 8, 0].map fun shift => toString (addr >>> shift % 256))

/-- The first longest run of zeros, as its start and length. -/
def zeroRun (segments : List Nat) : Nat × Nat :=
  let runs := (List.range segments.length).map fun start =>
    (start, ((segments.drop start).takeWhile fun segment => segment == 0).length)
  runs.foldl (fun longest run => if run.2 > longest.2 then run else longest) (0, 0)

def displaySegments (segments : List Nat) : String :=
  ":".intercalate (segments.map fun segment => String.ofList (Nat.toDigits 16 segment))

def displayV6 (addr : Nat) : String :=
  let segments := [112, 96, 80, 64, 48, 32, 16, 0].map fun shift => addr >>> shift % 65536
  if segments.take 6 = [0, 0, 0, 0, 0, 65535] then "::ffff:" ++ displayV4 (addr % 4294967296)
  else
    let (start, len) := zeroRun segments
    if len > 1 then displaySegments (segments.take start) ++ "::" ++ displaySegments (segments.drop (start + len))
    else displaySegments segments

def display : IpAddr → String
  | v4 addr => displayV4 addr.toNat
  | v6 addr => displayV6 addr.toNat

example : (v6 0x20010db8000000000000000000000001).display = "2001:db8::1" := by decide

end IpAddr

def Interface.display (i : Interface) : String :=
  "Interface " ++ toString i.id ++ ": " ++ i.base.ipAddress.display ++ " on subnet " ++ toString i.base.subnetId

def IfEntry.display (e : IfEntry) : String :=
  "IfEntry " ++ toString e.id ++ " (ifIndex " ++ toString e.base.ifIndex.toInt ++ "): " ++ e.base.ifDescr

namespace IfEntryService

/-- An entry of the host with the same index is updated, under its id. -/
def createOrUpdateByIfIndex (entry : IfEntry) : Store IfEntry := do
  match ((← get).ifEntriesOf entry.base.hostId).find? fun e => e.base.ifIndex == entry.base.ifIndex with
  | some existing =>
    CrudService.update IfEntry.display { entry with id := existing.id, createdAt := existing.createdAt }
  | none => CrudService.create entry

end IfEntryService

namespace ServiceService

/-- The children of a host as they were sent and as they came out. -/
structure Reassignment where
  originalInterfaces : List Interface
  originalPorts : List Port
  updatedHost : Host
  updatedInterfaces : List Interface
  updatedPorts : List Port
deriving DecidableEq, Repr

namespace Reassignment

variable (r : Reassignment)

def originalInterface (id : Uuid) : Option Interface := r.originalInterfaces.find? fun i => i.id == id

def updatedInterface (original : Interface) : Option Interface := r.updatedInterfaces.find? fun i => i.eq original

def updatedPort (id : Uuid) : Option Port :=
  (r.originalPorts.find? fun p => p.id == id).bind fun original => r.updatedPorts.find? fun p => p.eq original

/-- An interface binding needs its interface. A port binding needs its port
only: without the interface it is one on all interfaces. -/
def bindingType : BindingType → Option BindingType
  | .interface i => ((r.originalInterface i).bind r.updatedInterface).map fun i => .interface i.id
  | .port p i => (r.updatedPort p).map fun p =>
    .port p.id (((i.bind r.originalInterface).bind r.updatedInterface).map (·.id))

def binding (b : Binding) : Option Binding :=
  (r.bindingType b.base.bindingType).map fun bindingType => { b with base.bindingType := bindingType }

end Reassignment

def reassignServiceInterfaceBindings (r : Reassignment) (service : Service) : Service :=
  { service with
    base.bindings := service.base.bindings.filterMap r.binding
    base.hostId := r.updatedHost.id
    base.networkId := r.updatedHost.base.networkId }

end ServiceService

namespace HostService

open ServiceService (Reassignment)

/-! ## Hosts -/

def hostsOf (db : Db) (networkId : Uuid) : List Host :=
  db.hosts.select (fun h => h.base.networkId == networkId) Host.createdAt

/-- The first host of the network that has one of the interfaces. -/
def findMatchingHostByInterfaces (db : Db) (networkId : Uuid) (incomingInterfaces : List Interface) : Option Host :=
  (hostsOf db networkId).find? fun host =>
    incomingInterfaces.any fun incoming => (db.interfacesOf host.id).any fun existing => incoming.eq existing

def mergeSource : EntitySource → EntitySource → EntitySource
  | .discovery existingMetadata, .discovery newMetadata =>
    (EntitySource.discovery (newMetadata ++ existingMetadata)).capMetadata
  | _, .discovery newMetadata => .discovery newMetadata
  | existingSource, _ => existingSource

def merged (existing newData : Host) : Host :=
  { existing with
    base.hostname := existing.base.hostname <|> newData.base.hostname
    base.sysDescr := existing.base.sysDescr <|> newData.base.sysDescr
    base.sysObjectId := existing.base.sysObjectId <|> newData.base.sysObjectId
    base.sysLocation := existing.base.sysLocation <|> newData.base.sysLocation
    base.sysContact := existing.base.sysContact <|> newData.base.sysContact
    base.managementUrl := existing.base.managementUrl <|> newData.base.managementUrl
    base.chassisId := existing.base.chassisId <|> newData.base.chassisId
    base.source := mergeSource existing.base.source newData.base.source }

/-- A field is filled, or the new data is of a discovery. -/
def hasUpdates (existing newData : Host) : Bool :=
  let fills (f : HostBase → Option String) : Bool := (f existing.base).isNone && (f newData.base).isSome
  fills HostBase.hostname || fills HostBase.sysDescr || fills HostBase.sysObjectId || fills HostBase.sysLocation
    || fills HostBase.sysContact || fills HostBase.managementUrl || fills HostBase.chassisId
    || match newData.base.source with
      | .discovery _ => true
      | _ => false

def upsertHost (existing newData : Host) : Store Host := do
  let host := merged existing newData
  if hasUpdates existing newData then
    let _ ← Storable.update host
  return host

/-- Whether both come from a discovery, or are the same anyway. -/
def mergesInto (host existing : Host) : Bool :=
  (match host.base.source, existing.base.source with
    | .discovery _, .discovery _ => true
    | _, _ => false)
    || host.id == existing.id

def create (host : Host) : Store Host := do
  let host ← Storable.orNew host
  let db ← get
  match ((hostsOf db host.base.networkId).find? host.eq).filter (mergesInto host) with
  | some existing => upsertHost existing host
  | none =>
    match db.hosts.get host.id with
    | some existing =>
      throw (.validation ("Network mismatch: Daemon is trying to update host '" ++ existing.base.name ++ "' (id: " ++
        toString host.id ++ ") but cannot proceed. The host belongs to network " ++
          toString existing.base.networkId ++
        " while the daemon is assigned to network " ++ toString host.base.networkId ++ ". To resolve this, either " ++
        "reassign the daemon to the correct network or delete the mismatched host."))
    | none =>
      let _ ← Storable.create host
      return host

/-! ## Children -/

/-- The stored interface an incoming one stands for: by id, by subnet and
address, or by MAC address. -/
def existingInterface (db : Db) (i : Interface) : Option Interface :=
  let ofHost (p : Interface → Bool) :=
    db.interfaces.select (fun e => e.base.hostId == i.base.hostId && p e) Interface.createdAt
  db.interfaces.get i.id
    <|> ((ofHost fun e => e.base.subnetId == i.base.subnetId).find? fun e => e.base.ipAddress == i.base.ipAddress)
    <|> i.base.macAddress.bind fun mac => (ofHost fun e => e.base.macAddress == some mac).head?

def saveInterface (conflictBehavior : ConflictBehavior) (host : Host) (i : Interface) : Store Interface := do
  let i := { i with base.hostId := host.id }
  let db ← get
  match if conflictBehavior = .upsert then existingInterface db i else none with
  | some existing => return existing
  | none => CrudService.create i

/-- The stored port an incoming one stands for: by id, or by number and protocol. -/
def existingPort (db : Db) (hostId : Uuid) (p : Port) : Option Port :=
  db.ports.get p.id <|> (db.portsOf hostId).find? fun e => e.eq p

def savePort (conflictBehavior : ConflictBehavior) (host : Host) (p : Port) : Store Port := do
  let p := p.withHost host.id host.base.networkId
  let db ← get
  match if conflictBehavior = .upsert then existingPort db host.id p else none with
  | some existing => return existing
  | none => CrudService.create p

/-! ## Services -/

/-- The services of a request so far. -/
structure Batch where
  /-- The ports claimed by those created. -/
  claimed : List (Uuid × Option Uuid) := []
  /-- The bindings left of those dropped. -/
  orphaned : List Binding := []
  created : List Service := []
deriving DecidableEq, Repr

/-- Create a service of the request, or drop it if one of its ports is taken. -/
def saveService (r : Reassignment) (batch : Batch) (service : Service) : Store Batch := do
  let reassigned := ServiceService.reassignServiceInterfaceBindings r service
  let (validBindings, conflictingBindings) ← ServiceService.partitionConflictingBindings r.updatedHost.id reassigned.id
    reassigned.base.bindings batch.claimed
  if !conflictingBindings.isEmpty then
    return { batch with orphaned := batch.orphaned ++ validBindings }
  else
    let created ← ServiceService.create reassigned
    return { batch with claimed := batch.claimed ++ reassigned.claims, created := batch.created ++ [created] }

def openPortsDef : ServiceDefinition where
  id := "Unclaimed Open Ports"
  isGeneric := true
  isOpenPorts := true

def openPortsService (host : Host) (bindings : List Binding) : Service where
  base :=
    { hostId := host.id, networkId := host.base.networkId, serviceDefinition := openPortsDef
      name := "Unclaimed Open Ports", bindings := bindings, source := .discovery [] }

/-- The bindings left of dropped services go to the "Unclaimed Open Ports". -/
def assignOrphaned (host : Host) (batch : Batch) : Store Batch := do
  if batch.orphaned.isEmpty then return batch
  else
    let service ← Storable.new (openPortsService host batch.orphaned)
    let created ← ServiceService.create service
    return { batch with created := batch.created ++ [created] }

/-! ## Creating a host with its children -/

/-- The host of a request, under the id of the host it stands for. -/
def matchHost (conflictBehavior : ConflictBehavior) (hostLimit : Option Nat) (request : DiscoveryHostRequest) :
    Store Host := do
  let db ← get
  let host := request.host
  match findMatchingHostByInterfaces db host.base.networkId request.interfaces, conflictBehavior with
  | some existing, .error =>
    throw (.validation ("A host with matching interfaces already exists: '" ++ existing.base.name ++ "' (id: " ++
      toString existing.id ++ "). Edit the existing host instead of creating a new one."))
  | some existing, .upsert => return { host with id := existing.id }
  | none, _ =>
    let currentHosts := (hostsOf db host.base.networkId).length
    if hostLimit.any fun limit => currentHosts ≥ limit then
      throw (.internal ("Host limit reached (" ++ toString currentHosts ++ "/" ++ toString (hostLimit.getD 0) ++
        "). Upgrade your plan for unlimited hosts."))
    return host

/-- The host, its interfaces and its ports: all the services need. -/
def createHost (conflictBehavior : ConflictBehavior) (hostLimit : Option Nat) (request : DiscoveryHostRequest) :
    Store Reassignment := do
  let host ← matchHost conflictBehavior hostLimit request
  let createdHost ← create host
  let createdInterfaces ← request.interfaces.mapM (saveInterface conflictBehavior createdHost)
  let createdPorts ← request.ports.mapM (savePort conflictBehavior createdHost)
  return {
    originalInterfaces := request.interfaces
    originalPorts := request.ports
    updatedHost := createdHost
    updatedInterfaces := createdInterfaces
    updatedPorts := createdPorts }

def saveIfEntry (host : Host) (entry : IfEntry) : Store IfEntry :=
  IfEntryService.createOrUpdateByIfIndex { entry with base.hostId := host.id, base.networkId := host.base.networkId }

/-- What is left once the services are created. -/
def finish (r : Reassignment) (ifEntries : List IfEntry) (batch : Batch) : Store HostResponse := do
  let batch ← assignOrphaned r.updatedHost batch
  let createdIfEntries ← ifEntries.mapM (saveIfEntry r.updatedHost)
  return .fromHostWithChildren r.updatedHost r.updatedInterfaces r.updatedPorts batch.created createdIfEntries

def createWithChildren (conflictBehavior : ConflictBehavior) (hostLimit : Option Nat)
    (request : DiscoveryHostRequest) :
    Store HostResponse := do
  let r ← createHost conflictBehavior hostLimit request
  let batch ← request.services.foldlM (saveService r) {}
  finish r request.ifEntries batch

/-! ## Discovery -/

/-- The interface of an entry: the last one with its MAC address. -/
def interfaceByMac (interfaces : List Interface) (entry : IfEntry) : Option Interface :=
  entry.base.macAddress.bind fun mac => interfaces.reverse.find? fun i => i.base.macAddress == some mac

/-- Link an entry that has no interface, which may fail without consequence. -/
def linkIfEntry (interfaces : List Interface) (entry : IfEntry) : Store Unit := do
  match if entry.base.interfaceId.isNone then interfaceByMac interfaces entry else none with
  | some i =>
    let _ ← Program.attempt (CrudService.update IfEntry.display { entry with base.interfaceId := some i.id })
    return ()
  | none => return ()

def linkIfEntriesToInterfaces (hostId : Uuid) : Store Unit := do
  let db ← get
  let _ ← (db.ifEntriesOf hostId).mapM (linkIfEntry (db.interfacesOf hostId))
  return ()

def discoverHost (hostLimit : Option Nat) (request : DiscoveryHostRequest) : Store HostResponse := do
  let response ← createWithChildren .upsert hostLimit request
  if !request.ifEntries.isEmpty then
    linkIfEntriesToInterfaces response.id
  return response

end HostService

end Netvisor
