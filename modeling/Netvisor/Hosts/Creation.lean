/-
`create_from_request`: creating a host with its children from a request of the
API, which gives the ids of interfaces, ports and services.
-/
import Netvisor.Hosts.Update

namespace Netvisor

structure IfEntryInput where
  ifIndex : BitVec 32
  ifDescr : String
  macAddress : Option MacAddress := none
  interfaceId : Option Uuid := none
deriving DecidableEq, Repr

def IfEntryInput.intoIfEntry (input : IfEntryInput) (hostId networkId : Uuid) : Store IfEntry :=
  Storable.new
    { base :=
        { hostId, networkId, ifIndex := input.ifIndex, ifDescr := input.ifDescr, macAddress := input.macAddress
          interfaceId := input.interfaceId } }

structure CreateHostRequest where
  name : String
  networkId : Uuid
  hostname : Option String := none
  description : Option String := none
  virtualization : Option HostVirtualization := none
  hidden : Bool := false
  tags : List Uuid := []
  sysDescr : Option String := none
  sysObjectId : Option String := none
  sysLocation : Option String := none
  sysContact : Option String := none
  managementUrl : Option String := none
  chassisId : Option String := none
  snmpCredentialId : Option Uuid := none
  interfaces : List InterfaceInput := []
  ports : List PortInput := []
  services : List ServiceInput := []
  ifEntries : List IfEntryInput := []
deriving DecidableEq, Repr

namespace CreateHostRequest

variable (request : CreateHostRequest)

def hostBase : HostBase where
  name := request.name
  networkId := request.networkId
  hostname := request.hostname
  description := request.description
  source := .manual
  virtualization := request.virtualization
  hidden := request.hidden
  tags := request.tags
  sysDescr := request.sysDescr
  sysObjectId := request.sysObjectId
  sysLocation := request.sysLocation
  sysContact := request.sysContact
  managementUrl := request.managementUrl
  chassisId := request.chassisId
  snmpCredentialId := request.snmpCredentialId

/-- Positions are checked, or given to all inputs. -/
def positioned {α : Type} [PositionedInput α] (inputs : List α) (entityName : String) : Store (List α) :=
  match PositionedInput.resolveAndValidate inputs [] entityName with
  | .ok inputs => return inputs
  | .error message => throw (.validation message)

/-- The host, under a new id, and its children. -/
def withChildren : Store DiscoveryHostRequest := do
  let interfaces ← positioned request.interfaces "interface"
  let services ← positioned request.services "service"
  let host ← Storable.new { base := request.hostBase : Host }
  let now := (← get).now
  let ifEntries ← request.ifEntries.mapM fun input => input.intoIfEntry host.id request.networkId
  return {
    host
    interfaces := interfaces.map fun input => input.intoInterface host.id request.networkId now
    ports := request.ports.map fun input => input.intoPort host.id request.networkId now
    services := services.map fun input => input.intoService host.id request.networkId .manual now
    ifEntries }

end CreateHostRequest

/-- The host limit is checked in the handler. -/
def HostService.createFromRequest (request : CreateHostRequest) : Store HostResponse := do
  let host ← request.withChildren
  createWithChildren .error none host

end Netvisor
