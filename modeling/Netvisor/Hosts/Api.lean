/-
The messages that carry hosts: from daemon to server, and from the API to the
server and back.
-/
import Netvisor.Entities

namespace Netvisor

/-- A discovered host with its children. -/
structure DiscoveryHostRequest where
  host : Host := {}
  interfaces : List Interface := []
  ports : List Port := []
  services : List Service := []
  ifEntries : List IfEntry := []
deriving DecidableEq, Repr

/-- The children of `host` added to those of `existing`. -/
def DiscoveryHostRequest.extend (existing host : DiscoveryHostRequest) : DiscoveryHostRequest :=
  { existing with
    interfaces := existing.interfaces ++ host.interfaces
    ports := existing.ports ++ host.ports
    services := existing.services ++ host.services
    ifEntries := existing.ifEntries ++ host.ifEntries }

/-! ## Updates from the API -/

structure InterfaceInput where
  id : Uuid
  subnetId : Uuid
  ipAddress : IpAddr
  macAddress : Option MacAddress := none
  name : Option String := none
  position : Option Int := none
deriving DecidableEq, Repr

def InterfaceInput.intoInterface (input : InterfaceInput) (hostId networkId : Uuid) (now : DateTime) : Interface where
  id := input.id
  createdAt := now
  updatedAt := now
  base :=
    { networkId, hostId, subnetId := input.subnetId, ipAddress := input.ipAddress, macAddress := input.macAddress
      name := input.name, position := input.position.getD 0 }

structure PortInput where
  id : Uuid
  number : BitVec 16
  protocol : TransportProtocol
deriving DecidableEq, Repr

def PortInput.intoPort (input : PortInput) (hostId networkId : Uuid) (now : DateTime) : Port where
  id := input.id
  createdAt := now
  updatedAt := now
  base := { hostId, networkId, portType := ⟨input.number, input.protocol⟩ }

inductive BindingInput
  | interface (id interfaceId : Uuid)
  | port (id portId : Uuid) (interfaceId : Option Uuid)
deriving DecidableEq, Repr

namespace BindingInput

def id : BindingInput → Uuid
  | .interface id _ => id
  | .port id _ _ => id

def bindingType : BindingInput → BindingType
  | .interface _ interfaceId => .interface interfaceId
  | .port _ portId interfaceId => .port portId interfaceId

def intoBinding (input : BindingInput) (serviceId networkId : Uuid) (now : DateTime) : Binding where
  id := input.id
  createdAt := now
  updatedAt := now
  base := { serviceId, networkId, bindingType := input.bindingType }

end BindingInput

structure ServiceInput where
  id : Uuid
  serviceDefinition : ServiceDefinition
  name : String
  bindings : List BindingInput := []
  virtualization : Option DockerVirtualization := none
  tags : List Uuid := []
  position : Option Int := none
deriving DecidableEq, Repr

def ServiceInput.intoService (input : ServiceInput) (hostId networkId : Uuid) (source : EntitySource)
    (now : DateTime) :
    Service where
  id := input.id
  createdAt := now
  updatedAt := now
  base :=
    { hostId, networkId, serviceDefinition := input.serviceDefinition, name := input.name
      bindings := input.bindings.map fun b => b.intoBinding input.id networkId now
      virtualization := input.virtualization, source, tags := input.tags, position := input.position.getD 0 }

/-- The fields of a host, and the children it is to have; those of a kind that
is not given are kept. -/
structure UpdateHostRequest where
  id : Uuid
  name : String
  hostname : Option String := none
  description : Option String := none
  virtualization : Option HostVirtualization := none
  hidden : Bool := false
  tags : List Uuid := []
  /-- The version of the host the request was made from. -/
  expectedUpdatedAt : Option DateTime := none
  interfaces : Option (List InterfaceInput) := none
  ports : Option (List PortInput) := none
  services : Option (List ServiceInput) := none
deriving DecidableEq, Repr

/-! ## Responses -/

/-- What the server answers for a host: its fields and its children. -/
structure HostResponse where
  id : Uuid := Uuid.nil
  createdAt : DateTime := 0
  updatedAt : DateTime := 0
  name : String := ""
  networkId : Uuid := Uuid.nil
  hostname : Option String := none
  description : Option String := none
  source : EntitySource := .unknown
  virtualization : Option HostVirtualization := none
  hidden : Bool := false
  tags : List Uuid := []
  sysDescr : Option String := none
  sysObjectId : Option String := none
  sysLocation : Option String := none
  sysContact : Option String := none
  managementUrl : Option String := none
  chassisId : Option String := none
  snmpCredentialId : Option Uuid := none
  interfaces : List Interface := []
  ports : List Port := []
  services : List Service := []
  ifEntries : List IfEntry := []
deriving DecidableEq, Repr

def HostResponse.toHost (r : HostResponse) : Host where
  id := r.id
  createdAt := r.createdAt
  updatedAt := r.updatedAt
  base :=
    { name := r.name, networkId := r.networkId, hostname := r.hostname, description := r.description
      source := r.source, virtualization := r.virtualization, hidden := r.hidden, tags := r.tags
      sysDescr := r.sysDescr, sysObjectId := r.sysObjectId, sysLocation := r.sysLocation
      sysContact := r.sysContact, managementUrl := r.managementUrl, chassisId := r.chassisId
      snmpCredentialId := r.snmpCredentialId }

def HostResponse.fromHostWithChildren (host : Host) (interfaces : List Interface) (ports : List Port)
    (services : List Service) (ifEntries : List IfEntry) : HostResponse where
  id := host.id
  createdAt := host.createdAt
  updatedAt := host.updatedAt
  name := host.base.name
  networkId := host.base.networkId
  hostname := host.base.hostname
  description := host.base.description
  source := host.base.source
  virtualization := host.base.virtualization
  hidden := host.base.hidden
  tags := host.base.tags
  sysDescr := host.base.sysDescr
  sysObjectId := host.base.sysObjectId
  sysLocation := host.base.sysLocation
  sysContact := host.base.sysContact
  managementUrl := host.base.managementUrl
  chassisId := host.base.chassisId
  snmpCredentialId := host.base.snmpCredentialId
  interfaces := interfaces
  ports := ports
  services := services
  ifEntries := ifEntries

/-- Building a response from a host loses nothing of the host. -/
@[simp] theorem HostResponse.toHost_fromHostWithChildren (host interfaces ports services ifEntries) :
    (fromHostWithChildren host interfaces ports services ifEntries).toHost = host := rfl

/-! ## The children of a host -/

inductive Child
  | interface (interface : Interface)
  | port (port : Port)
  | service (service : Service)
  | ifEntry (ifEntry : IfEntry)
deriving DecidableEq, Repr

def DiscoveryHostRequest.children (r : DiscoveryHostRequest) : List Child :=
  r.interfaces.map .interface ++ r.ports.map .port ++ r.services.map .service ++ r.ifEntries.map .ifEntry

theorem DiscoveryHostRequest.mem_children_extend {existing host : DiscoveryHostRequest} {c : Child} :
    c ∈ (existing.extend host).children ↔ c ∈ host.children ∨ c ∈ existing.children := by
  simp only [children, extend, List.map_append, List.mem_append]
  grind

end Netvisor
