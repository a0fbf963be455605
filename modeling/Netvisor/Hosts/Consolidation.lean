/-
`consolidate_hosts`: the children of a host are moved to another, one row after
the other, and the host is deleted.

An interface or port the destination has already is not moved; what was bound
to it is bound to that of the destination. A service of the same name and
definition is not moved either. What is left on the host goes with it.
-/
import Netvisor.Hosts.Service

namespace Netvisor.HostService

/-! ## Deleting a host -/

/-- `hostsWithDaemon` are the hosts of the daemons. -/
def deleteHost (hostsWithDaemon : List Uuid) (id : Uuid) : Store Unit := do
  if hostsWithDaemon.contains id then
    throw (.validation "Can't delete a host with an associated daemon. Delete the daemon first.")
  match ← Storable.getById (α := Host) id with
  | none => throw (.internal ("Host " ++ toString id ++ " not found"))
  | some _ => modify fun db => db.deleteHost id

/-! ## Where the children go -/

/-- Whether the interface of the destination stands for one of the other host. -/
def conflicting (other dest : Interface) : Bool :=
  (dest.base.subnetId == other.base.subnetId && dest.base.ipAddress == other.base.ipAddress)
    || (dest.base.macAddress.isSome && dest.base.macAddress == other.base.macAddress)

def matchingInterface (destInterfaces : List Interface) (other : Interface) : Option Interface :=
  destInterfaces.find? (conflicting other)

def matchingPort (destPorts : List Port) (other : Port) : Option Port := destPorts.find? fun dest => dest.eq other

/-- The interfaces and ports of the other host, with those of the destination that stand for them. -/
structure IdMaps where
  interfaces : List (Uuid × Uuid)
  ports : List (Uuid × Uuid)
deriving DecidableEq, Repr

namespace IdMaps

variable (ids : IdMaps)

/-- A port binding on an interface that is not in the map is one on all interfaces. -/
def bindingType : BindingType → BindingType
  | .interface i => .interface ((ids.interfaces.lookup i).getD i)
  | .port p i => .port ((ids.ports.lookup p).getD p) (i.bind fun i => ids.interfaces.lookup i)

def binding (b : Binding) : Binding := { b with base.bindingType := ids.bindingType b.base.bindingType }

/-- The service on its new host. -/
def service (updatedHost : Host) (s : Service) : Service :=
  { s with
    base.hostId := updatedHost.id
    base.networkId := updatedHost.base.networkId
    base.bindings := s.base.bindings.map ids.binding }

end IdMaps

/-- A service of the destination with the name and the definition. -/
def isDuplicate (destinationServices : List Service) (service : Service) : Bool :=
  destinationServices.any fun dest =>
    dest.base.name == service.base.name && dest.base.serviceDefinition.id == service.base.serviceDefinition.id

/-! ## Moving the children -/

def transferInterface (destination : Host) (destInterfaces : List Interface) (other : Interface) :
    Store (Uuid × Uuid) := do
  match matchingInterface destInterfaces other with
  | some dest => return (other.id, dest.id)
  | none =>
    let _ ← CrudService.update Interface.display { other with base.hostId := destination.id }
    return (other.id, other.id)

def transferPort (destination : Host) (destPorts : List Port) (other : Port) : Store (Uuid × Uuid) := do
  match matchingPort destPorts other with
  | some dest => return (other.id, dest.id)
  | none =>
    let _ ← CrudService.update Port.display (other.withHost destination.id destination.base.networkId)
    return (other.id, other.id)

def transferService (ids : IdMaps) (updatedHost : Host) (destinationServices : List Service) (service : Service) :
    Store Unit := do
  if isDuplicate destinationServices service then return ()
  let _ ← Program.mapError
    (fun e => .internal ("Failed to update service '" ++ service.base.name ++ "' during consolidation: " ++ e.text))
    (ServiceService.update (ids.service updatedHost service))
  return ()

def consolidateHosts (hostsWithDaemon : List Uuid) (destination other : Host) : Store HostResponse := do
  if destination.id == other.id then throw (.validation "Can't consolidate a host with itself")
  if hostsWithDaemon.contains other.id then
    throw (.validation ("Can't consolidate a host that has a daemon associated with it. " ++
      "Consolidate the other host into the host with the daemon instead."))
  let db ← get
  let interfaces ← (db.interfacesOf other.id).mapM (transferInterface destination (db.interfacesOf destination.id))
  let ports ← (db.portsOf other.id).mapM (transferPort destination (db.portsOf destination.id))
  let updatedHost ← upsertHost destination other
  let db ← get
  let _ ← (db.servicesOf other.id).mapM
    (transferService { interfaces, ports } updatedHost (db.servicesOf destination.id))
  deleteHost hostsWithDaemon other.id
  let db ← get
  return .fromHostWithChildren updatedHost (db.interfacesOf updatedHost.id) (db.portsOf updatedHost.id)
    ((db.servicesByPosition updatedHost.id).map db.hydrate) (db.ifEntriesOf updatedHost.id)

end Netvisor.HostService
