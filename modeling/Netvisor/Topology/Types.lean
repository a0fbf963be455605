/-
Topologies: a drawn graph of a network, with a copy of the entities it was drawn
from, and the requests that edit one.
-/
import Netvisor.Entities

namespace Netvisor

inductive ServiceCategory
  | networkCore | networkAccess | networkSecurity
  | storage | backup | media | homeAutomation | virtualization
  | dns | vpn | snmp | monitoring | adBlock | reverseProxy
  | workstation | mobile | ioT | printer
  | database | development | dashboard | messageQueue | identityAndAccess
  | office | projectManagement
  | messaging | conferencing | telephony | email
  | publishing
  | unknown | custom | scanopy | openPorts
deriving DecidableEq, Repr

/-! ## The graph -/

structure Ixy where
  x : Int := 0
  y : Int := 0
deriving DecidableEq, Repr

structure Uxy where
  x : Nat := 0
  y : Nat := 0
deriving DecidableEq, Repr

inductive NodeType
  | subnetNode (infraWidth : Nat)
  | interfaceNode (subnetId hostId : Uuid) (interfaceId : Option Uuid) (isInfra : Bool)
deriving DecidableEq, Repr

structure Node where
  nodeType : NodeType
  id : Uuid
  position : Ixy := {}
  size : Uxy := {}
  header : Option String := none
deriving DecidableEq, Repr

inductive DiscoveryProtocol
  | lldp
  | cdp
deriving DecidableEq, Repr

inductive EdgeType
  | interface (hostId : Uuid)
  | hostVirtualization (vmServiceId : Uuid)
  | serviceVirtualization (hostId containerizingServiceId : Uuid)
  | requestPath (groupId sourceBindingId targetBindingId : Uuid)
  | hubAndSpoke (groupId sourceBindingId targetBindingId : Uuid)
  | physicalLink (sourceIfEntryId targetIfEntryId : Uuid) (protocol : DiscoveryProtocol)
deriving DecidableEq, Repr

inductive EdgeTypeDiscriminants
  | interface | hostVirtualization | serviceVirtualization | requestPath | hubAndSpoke | physicalLink
deriving DecidableEq, Repr

inductive EdgeHandle
  | top | bottom | left | right
deriving DecidableEq, Repr

structure Edge where
  id : Uuid
  source : Uuid
  target : Uuid
  edgeType : EdgeType
  label : Option String := none
  sourceHandle : EdgeHandle := .top
  targetHandle : EdgeHandle := .top
  isMultiHop : Bool := false
deriving DecidableEq, Repr

/-! ## Groups and tags -/

inductive GroupType
  | requestPath
  | hubAndSpoke
deriving DecidableEq, Repr

structure Group where
  id : Uuid := Uuid.nil
  createdAt : DateTime := 0
  updatedAt : DateTime := 0
  name : String := ""
  networkId : Uuid := Uuid.nil
  groupType : GroupType := .requestPath
  bindingIds : List Uuid := []
deriving DecidableEq, Repr

structure Tag where
  id : Uuid := Uuid.nil
  createdAt : DateTime := 0
  updatedAt : DateTime := 0
  name : String := ""
  organizationId : Uuid := Uuid.nil
deriving DecidableEq, Repr

/-! ## Topologies -/

structure TopologyTagFilter where
  hiddenHostTagIds : List Uuid := []
  hiddenServiceTagIds : List Uuid := []
  hiddenSubnetTagIds : List Uuid := []
deriving DecidableEq, Repr

structure TopologyLocalOptions where
  leftZoneTitle : String := "Infrastructure"
  noFadeEdges : Bool := false
  hideResizeHandles : Bool := false
  hideEdgeTypes : List EdgeTypeDiscriminants := [.hostVirtualization]
  tagFilter : TopologyTagFilter := {}
deriving DecidableEq, Repr

structure TopologyRequestOptions where
  groupDockerBridgesByHost : Bool := true
  hideVmTitleOnDockerContainer : Bool := false
  hidePorts : Bool := false
  leftZoneServiceCategories : List ServiceCategory := [.dns, .reverseProxy]
  hideServiceCategories : List ServiceCategory := [.openPorts]
  showGatewayInLeftZone : Bool := true
deriving DecidableEq, Repr

structure TopologyOptions where
  «local» : TopologyLocalOptions := {}
  request : TopologyRequestOptions := {}
deriving DecidableEq, Repr

/-- The copies of entities in a topology. -/
structure SetEntitiesParams where
  hosts : List Host := []
  services : List Service := []
  subnets : List Subnet := []
  groups : List Group := []
  ports : List Port := []
  bindings : List Binding := []
  interfaces : List Interface := []
  ifEntries : List IfEntry := []
  entityTags : List Tag := []
deriving DecidableEq, Repr

/-- The networks the entities are of; tags are an organization's. -/
def SetEntitiesParams.networkIds (params : SetEntitiesParams) : List Uuid :=
  params.hosts.map (·.base.networkId) ++ params.services.map (·.base.networkId)
    ++ params.subnets.map (·.base.networkId) ++ params.groups.map (·.networkId)
    ++ params.ports.map (·.base.networkId) ++ params.bindings.map (·.base.networkId)
    ++ params.interfaces.map (·.base.networkId) ++ params.ifEntries.map (·.base.networkId)

/-- What was removed since a topology was drawn. -/
structure Removed where
  hosts : List Uuid := []
  interfaces : List Uuid := []
  subnets : List Uuid := []
  services : List Uuid := []
  groups : List Uuid := []
  ports : List Uuid := []
  bindings : List Uuid := []
  ifEntries : List Uuid := []
deriving DecidableEq, Repr

structure TopologyBase where
  name : String := ""
  options : TopologyOptions := {}
  networkId : Uuid := Uuid.nil
  tags : List Uuid := []
  parentId : Option Uuid := none
  nodes : List Node := []
  edges : List Edge := []
  entities : SetEntitiesParams := {}
  isStale : Bool := true
  lastRefreshed : DateTime := 0
  isLocked : Bool := false
  lockedAt : Option DateTime := none
  lockedBy : Option Uuid := none
  removed : Removed := {}
deriving DecidableEq, Repr

structure Topology where
  id : Uuid := Uuid.nil
  createdAt : DateTime := 0
  updatedAt : DateTime := 0
  base : TopologyBase := {}
deriving DecidableEq, Repr

namespace Topology

instance : ToString Topology where
  toString topology := "Topology \x7b id: " ++ toString topology.id ++ ", name: " ++ topology.base.name ++ " \x7d"

def lock (topology : Topology) (lockedBy : Uuid) (now : DateTime) : Topology :=
  { topology with base.isLocked := true, base.lockedAt := some now, base.lockedBy := some lockedBy }

def unlock (topology : Topology) : Topology :=
  { topology with base.isLocked := false, base.lockedAt := none, base.lockedBy := none }

def clearStale (topology : Topology) (now : DateTime) : Topology :=
  { topology with base.removed := {}, base.isStale := false, base.lastRefreshed := now }

def setEntities (topology : Topology) (params : SetEntitiesParams) : Topology :=
  { topology with base.entities := params }

def setGraph (topology : Topology) (nodes : List Node) (edges : List Edge) : Topology :=
  { topology with base.nodes := nodes, base.edges := edges }

end Topology

/-! ## Requests -/

structure TopologyRebuildRequest where
  networkId : Uuid
  options : TopologyOptions := {}
  nodes : List Node := []
  edges : List Edge := []
deriving DecidableEq, Repr

structure TopologyNodePositionUpdate where
  networkId : Uuid
  nodeId : Uuid
  position : Ixy
deriving DecidableEq, Repr

structure TopologyEdgeHandleUpdate where
  networkId : Uuid
  edgeId : Uuid
  sourceHandle : EdgeHandle
  targetHandle : EdgeHandle
deriving DecidableEq, Repr

structure TopologyNodeResizeUpdate where
  networkId : Uuid
  nodeId : Uuid
  size : Uxy
  position : Ixy
deriving DecidableEq, Repr

structure TopologyMetadataUpdate where
  networkId : Uuid
  name : String
  parentId : Option Uuid := none
deriving DecidableEq, Repr

end Netvisor
