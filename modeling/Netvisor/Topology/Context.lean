/-
What the graph of a network is built from, and the questions that the building
of edges and the layout of nodes ask of it.
-/
import Netvisor.Lib.Table
import Netvisor.Subnets.Service
import Netvisor.Topology.Types

namespace Netvisor

/-! ## The layers of subnets -/

namespace SubnetType

def verticalOrder : SubnetType → Nat
  | internet | remote => 0
  | gateway | dmz | vpnTunnel => 1
  | lan | wiFi | guest | ioT => 2
  | dockerBridge | macVlan | ipVlan | management | storage => 3
  | unknown | none => 999

def horizontalOrder : SubnetType → Nat
  | internet => 0
  | remote => 1
  | gateway => 0
  | dmz => 1
  | vpnTunnel => 2
  | lan => 0
  | wiFi => 1
  | ioT => 2
  | guest => 3
  | storage => 0
  | management => 1
  | dockerBridge => 2
  | macVlan => 3
  | ipVlan => 4
  | unknown | none => 999

end SubnetType

def Service.getBinding (s : Service) (id : Uuid) : Option Binding := s.base.bindings.find? (·.id == id)

def Service.toBoundInterfaceIds (s : Service) : List (Option Uuid) := s.base.bindings.map Binding.interfaceId

/-- The subnet has one of the interfaces, and the service is bound to it or to all. -/
def Subnet.hasInterfaceWithService (subnet : Subnet) (hostInterfaces : List Interface) (service : Service) : Bool :=
  service.base.bindings.any fun binding => hostInterfaces.any fun interface =>
    (match binding.interfaceId with
      | some id => interface.id == id
      | none => true) && interface.base.subnetId == subnet.id

/-- The rows of a network. -/
structure TopologyContext where
  hosts : Table Host Host.id := {}
  interfaces : Table Interface Interface.id := {}
  subnets : Table Subnet Subnet.id := {}
  services : Table Service Service.id := {}
  groups : Table Group Group.id := {}
  ifEntries : Table IfEntry IfEntry.id := {}
  options : TopologyOptions := {}
  /-- As the service definitions are registered. -/
  category : ServiceDefinition → ServiceCategory := fun _ => .unknown
  /-- The alias of an entry, or its description. -/
  displayName : IfEntry → String := fun e => e.base.ifDescr
  ipText : IpAddr → String := fun _ => ""
  cidrText : IpCidr → String := fun _ => ""
  /-- The id an edge is given when it is drawn. -/
  edgeId : EdgeType → Uuid → Uuid → Uuid := fun _ _ _ => Uuid.nil

namespace TopologyContext

variable (ctx : TopologyContext)

/-! ## Data access -/

def getSubnetById (subnetId : Uuid) : Option Subnet := ctx.subnets.get subnetId

def getHostById (hostId : Uuid) : Option Host := ctx.hosts.get hostId

def getServiceById (serviceId : Uuid) : Option Service := ctx.services.get serviceId

def getInterfaceById (interfaceId : Option Uuid) : Option Interface := interfaceId.bind ctx.interfaces.get

def getInterfacesForHost (hostId : Uuid) : List Interface := ctx.interfaces.rows.filter (·.base.hostId == hostId)

def getServicesForHost (hostId : Uuid) : List Service := ctx.services.rows.filter (·.base.hostId == hostId)

def getFirstNonDockerBridgeInterfaceForHost (hostId : Uuid) : Option Interface :=
  ctx.interfaces.rows.find? fun interface =>
    interface.base.hostId == hostId &&
      match ctx.getSubnetById interface.base.subnetId with
      | some subnet => !subnet.base.subnetType.isDockerBridge
      | none => false

def getServicesBoundToInterface (interfaceId : Uuid) : List Service :=
  ctx.services.rows.filter fun s => s.toBoundInterfaceIds.any fun id => id == some interfaceId

def getSubnetFromInterfaceId (interfaceId : Uuid) : Option Subnet := do
  let interface ← ctx.interfaces.get interfaceId
  ctx.getSubnetById interface.base.subnetId

/-! ## Interface table entries -/

def getIfEntryById (id : Uuid) : Option IfEntry := ctx.ifEntries.get id

/-- The entry's interface, or the only one of its host. -/
def resolveInterfaceForIfEntry (ifEntry : IfEntry) : Option Uuid :=
  match ifEntry.base.interfaceId with
  | some interfaceId => some interfaceId
  | none =>
    match ctx.getInterfacesForHost ifEntry.base.hostId with
    | [interface] => some interface.id
    | _ => none

def getIfEntriesWithNeighbor : List IfEntry :=
  ctx.ifEntries.rows.filter fun e =>
    match e.base.neighbor with
    | some (.ifEntry _) => true
    | _ => false

/-! ## Virtualization -/

def getHostIsVirtualizedBy (hostId : Uuid) : Option Service := do
  let host ← ctx.getHostById hostId
  let virtualization ← host.base.virtualization
  ctx.services.get virtualization.serviceId

/-- The subnet a node is on, which is itself for the node of a subnet. -/
def getNodeSubnet (nodeId : Uuid) (nodes : List Node) : Option Uuid :=
  (nodes.find? (·.id == nodeId)).map fun node =>
    match node.nodeType with
    | .interfaceNode subnetId .. => subnetId
    | .subnetNode _ => node.id

/-! ## Infrastructure -/

def getInterfacesWithInfraService (subnet : Subnet) : List (Option Uuid) :=
  (ctx.services.rows.filter fun s =>
    match ctx.getHostById s.base.hostId with
    | some host =>
      (ctx.options.request.leftZoneServiceCategories.contains (ctx.category s.base.serviceDefinition)
        || (ctx.options.request.showGatewayInLeftZone && s.base.serviceDefinition.isGateway))
        && subnet.hasInterfaceWithService (ctx.getInterfacesForHost host.id) s
    | none => false).flatMap Service.toBoundInterfaceIds

def isInterfaceInfra (interfaceId : Uuid) : Bool :=
  match ctx.getSubnetFromInterfaceId interfaceId with
  | some subnet => (ctx.getInterfacesWithInfraService subnet).contains (some interfaceId)
  | none => false

/-- The subnet has interfaces in both zones. -/
def subnetHasMixedInfra (subnet : Subnet) : Bool :=
  let infraInterfaces := ctx.getInterfacesWithInfraService subnet
  let ids := (ctx.interfaces.rows.filter (·.base.subnetId == subnet.id)).map Interface.id
  ids.any (fun id => infraInterfaces.contains (some id)) && ids.any fun id => !infraInterfaces.contains (some id)

/-! ## Edges -/

def edgeIsIntraSubnet (edge : Edge) : Bool :=
  match ctx.getSubnetFromInterfaceId edge.source, ctx.getSubnetFromInterfaceId edge.target with
  | some sourceSubnet, some targetSubnet => sourceSubnet.id == targetSubnet.id
  | _, _ => false

/-- The subnets are more than a layer apart. -/
def edgeIsMultiHop (sourceInterfaceId targetInterfaceId : Uuid) : Bool :=
  match ctx.getSubnetFromInterfaceId sourceInterfaceId, ctx.getSubnetFromInterfaceId targetInterfaceId with
  | some sourceSubnet, some targetSubnet =>
    1 < ((sourceSubnet.base.subnetType.verticalOrder : Int) - targetSubnet.base.subnetType.verticalOrder).natAbs
  | _, _ => false

/-! ## Nodes -/

def interfaceWillHaveNode (interfaceId : Uuid) : Bool := !(ctx.getServicesBoundToInterface interfaceId).isEmpty

end TopologyContext

end Netvisor
