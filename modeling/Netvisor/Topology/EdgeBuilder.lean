/-
`EdgeBuilder`: the edges of a graph, by kind.

Which interfaces are shown is asked of `visible`, which is
`TopologyContext.interfaceWillHaveNode`.
-/
import Netvisor.Lib.Assoc
import Netvisor.Topology.Context

namespace Netvisor

/-! ## Handles -/

namespace EdgeHandle

def isHorizontal : EdgeHandle → Bool
  | left | right => true
  | _ => false

/-- Both on one side, the left if it can be. -/
def chooseSideHandlesForMultiHop (sourceIsInfra targetIsInfra : Bool) : EdgeHandle × EdgeHandle :=
  if !sourceIsInfra && !targetIsInfra then (left, left)
  else if sourceIsInfra && targetIsInfra then (right, right)
  else (if sourceIsInfra then bottom else left, if targetIsInfra then bottom else left)

def fromSubnetLayers (sourceSubnet targetSubnet : Subnet) (sourceIsInfra targetIsInfra isMultiHop : Bool) :
    EdgeHandle × EdgeHandle :=
  if sourceSubnet.id == targetSubnet.id then (top, top)
  else
    match compare sourceSubnet.base.subnetType.verticalOrder targetSubnet.base.subnetType.verticalOrder with
    | .lt => if isMultiHop then chooseSideHandlesForMultiHop sourceIsInfra targetIsInfra else (bottom, top)
    | .gt => if isMultiHop then chooseSideHandlesForMultiHop sourceIsInfra targetIsInfra else (top, bottom)
    | .eq =>
      match compare sourceSubnet.base.subnetType.horizontalOrder targetSubnet.base.subnetType.horizontalOrder with
      | .gt => (if sourceIsInfra then bottom else left, if targetIsInfra then bottom else right)
      | .lt | .eq => (if sourceIsInfra then bottom else right, if targetIsInfra then bottom else left)

end EdgeHandle

namespace EdgeBuilder

variable (ctx : TopologyContext) (visible : Uuid → Bool)

/-- None where a subnet is not known. -/
def determineInterfaceHandles (sourceInterfaceId targetInterfaceId : Uuid) (isMultiHop : Bool) :
    Option (EdgeHandle × EdgeHandle) := do
  let sourceSubnet ← ctx.getSubnetFromInterfaceId sourceInterfaceId
  let targetSubnet ← ctx.getSubnetFromInterfaceId targetInterfaceId
  let sourceIsInfra := (ctx.getInterfacesWithInfraService sourceSubnet).contains (some sourceInterfaceId)
  let targetIsInfra := (ctx.getInterfacesWithInfraService targetSubnet).contains (some targetInterfaceId)
  return EdgeHandle.fromSubnetLayers sourceSubnet targetSubnet
    (sourceIsInfra && ctx.subnetHasMixedInfra sourceSubnet)
    (targetIsInfra && ctx.subnetHasMixedInfra targetSubnet) isMultiHop

/-- An edge, with the handles that it has between `source` and `anchor`. -/
def draw (source target anchor : Uuid) (edgeType : EdgeType) (label : Option String) : Option Edge := do
  let isMultiHop := ctx.edgeIsMultiHop source anchor
  let (sourceHandle, targetHandle) ← determineInterfaceHandles ctx source anchor isMultiHop
  return { id := ctx.edgeId edgeType source target, source, target, edgeType, label, sourceHandle, targetHandle,
           isMultiHop }

/-! ## Groups -/

/-- The interface that a binding of a service is at. -/
def bindingInterface (bindingId : Uuid) : Option (Option Uuid) :=
  ctx.services.rows.findSome? fun s => (s.getBinding bindingId).map Binding.interfaceId

def edgeFromServiceBindings (sourceBindingId targetBindingId : Uuid) (group : Group) : Option Edge :=
  match bindingInterface ctx sourceBindingId, bindingInterface ctx targetBindingId with
  | some (some sourceInterface), some (some targetInterface) =>
    if visible sourceInterface && visible targetInterface then
      draw ctx sourceInterface targetInterface targetInterface
        (match group.groupType with
          | .hubAndSpoke => .hubAndSpoke group.id sourceBindingId targetBindingId
          | .requestPath => .requestPath group.id sourceBindingId targetBindingId)
        (if (ctx.getSubnetFromInterfaceId sourceInterface).map Subnet.id =
            (ctx.getSubnetFromInterfaceId targetInterface).map Subnet.id then none else some group.name)
    else none
  | _, _ => none

def createGroupEdges : List Edge :=
  ctx.groups.rows.flatMap fun group =>
    match group.groupType with
    | .requestPath =>
      (group.bindingIds.zip group.bindingIds.tail).filterMap fun (source, target) =>
        edgeFromServiceBindings ctx visible source target group
    | .hubAndSpoke =>
      match group.bindingIds with
      | [] => []
      | hub :: spokes => spokes.reverse.filterMap fun spoke => edgeFromServiceBindings ctx visible hub spoke group

/-! ## Containers -/

/-- The containers of each docker service. -/
def containerizedServiceIds : Assoc Uuid (List Uuid) :=
  ctx.services.rows.foldl (fun m s =>
    match s.base.virtualization with
    | some docker =>
      let entry := m.getD docker.serviceId []
      m.insert docker.serviceId (if s.id ∈ entry then entry else entry ++ [s.id])
    | none => m) ∅

/-- The docker services that run containers, with their hosts and the interfaces that edges start from. -/
def dockerHosts : List (Service × Host × Interface) :=
  (ctx.services.rows.filter fun s => (containerizedServiceIds ctx).keys.contains s.id).filterMap fun s => do
    let host ← ctx.getHostById s.base.hostId
    let originInterface ← ctx.getFirstNonDockerBridgeInterfaceForHost host.id
    return (s, host, originInterface)

/-- The docker bridges that a host has interfaces on. -/
def containerSubnets (host : Host) : List Uuid :=
  ((ctx.getInterfacesForHost host.id).filterMap fun i => ctx.getSubnetById i.base.subnetId).filterMap fun s =>
    if s.base.subnetType = .dockerBridge then some s.id else none

def containerSubnetInterfaceIds (host : Host) : List Uuid :=
  (ctx.getInterfacesForHost host.id).filterMap fun i =>
    if i.base.subnetId ∈ containerSubnets ctx host then some i.id else none

/-- The bridge that a host's containers are grouped on, with the edge to it. -/
def groupingBridge : Service × Host × Interface → Option (Uuid × Edge)
  | (s, host, originInterface) =>
    match (containerSubnetInterfaceIds ctx host).head?, (containerSubnets ctx host).head? with
    | some firstInterfaceId, some firstSubnetId =>
      (draw ctx originInterface.id firstSubnetId firstInterfaceId (.serviceVirtualization host.id s.id)
        (some (s.base.name ++ " @ " ++ host.base.name))).map fun edge => (firstSubnetId, edge)
    | _, _ => none

/-- The edge to the interface that a container is bound to. -/
def containerEdge : Service × Host × Interface → Uuid → Option Edge
  | (s, host, originInterface), cs => do
    let containerized ← ctx.getServiceById cs
    let containerBindingInterfaceId ←
      (containerized.base.bindings.filterMap Binding.interfaceId).find? (· ∈ containerSubnetInterfaceIds ctx host)
    let edge ← draw ctx originInterface.id containerBindingInterfaceId containerBindingInterfaceId
      (.serviceVirtualization host.id s.id) (some (s.base.name ++ " on " ++ host.base.name))
    if visible originInterface.id && visible containerBindingInterfaceId then some edge else none

/-- By host, the bridge to group on. -/
def dockerBridgeHostSubnetIdToGroupOn (groupDockerBridgesByHost : Bool) : Assoc Uuid Uuid :=
  if groupDockerBridgesByHost then
    (dockerHosts ctx).foldl (fun m x =>
      match groupingBridge ctx x with
      | some (subnetId, _) => if m.lookup x.2.1.id = none then m.insert x.2.1.id subnetId else m
      | none => m) ∅
  else ∅

def createContainerizedServiceEdges (groupDockerBridgesByHost : Bool) : List Edge × Assoc Uuid Uuid :=
  ((dockerHosts ctx).flatMap fun x =>
    if groupDockerBridgesByHost then
      match groupingBridge ctx x with
      | some (_, edge) => if visible x.2.2.id then [edge] else []
      | none => []
    else
      ((containerizedServiceIds ctx).getD x.1.id []).filterMap (containerEdge ctx visible x),
   dockerBridgeHostSubnetIdToGroupOn ctx groupDockerBridgesByHost)

/-! ## Virtual machines -/

/-- By subnet and service, the first interface that a service with virtual machines is bound to. -/
def subnetToProxmoxHostInterfaceId : Assoc (Uuid × Uuid) Uuid :=
  ctx.hosts.rows.foldl (fun m h =>
    match h.base.virtualization.bind fun v => ctx.getServiceById v.serviceId with
    | some proxmoxService =>
      (proxmoxService.base.bindings.filterMap Binding.interfaceId).foldl (fun m i =>
        match ctx.getSubnetFromInterfaceId i with
        | some subnet =>
          if m.lookup (subnet.id, proxmoxService.id) = none then m.insert (subnet.id, proxmoxService.id) i else m
        | none => m) m
    | none => m) ∅

def createVmHostEdges : List Edge :=
  ctx.hosts.rows.flatMap fun h =>
    match h.base.virtualization with
    | some virtualization =>
      (ctx.getInterfacesForHost h.id).filterMap fun i => do
        let proxmoxServiceInterfaceId ←
          (subnetToProxmoxHostInterfaceId ctx).lookup (i.base.subnetId, virtualization.serviceId)
        if visible proxmoxServiceInterfaceId then
          draw ctx proxmoxServiceInterfaceId i.id i.id (.hostVirtualization virtualization.serviceId) none
        else none
    | none => []

/-! ## Interfaces of one host -/

def isOnDockerBridge (interface : Interface) : Bool :=
  match ctx.getSubnetById interface.base.subnetId with
  | some subnet => subnet.base.subnetType == .dockerBridge
  | none => false

def createInterfaceEdges : List Edge :=
  ctx.hosts.rows.flatMap fun host =>
    match ctx.getFirstNonDockerBridgeInterfaceForHost host.id with
    | some originInterface =>
      ((ctx.getInterfacesForHost host.id).filter fun interface =>
        interface.id != originInterface.id && visible interface.id && visible originInterface.id).filterMap fun interface =>
          if isOnDockerBridge ctx originInterface || isOnDockerBridge ctx interface then none
          else draw ctx originInterface.id interface.id interface.id (.interface host.id)
            (if originInterface.base.subnetId = interface.base.subnetId then none else some host.base.name)
    | none => []

/-! ## Physical links -/

/-- The entry, its neighbor's and the pair of them, in order. -/
def linkOf (sourceEntry : IfEntry) : Option (Uuid × (Uuid × Uuid)) :=
  match sourceEntry.base.neighbor with
  | some (.ifEntry targetIfEntryId) => some (targetIfEntryId,
      if (show BitVec 128 from sourceEntry.id) < (show BitVec 128 from targetIfEntryId) then (sourceEntry.id,
        targetIfEntryId)
      else (targetIfEntryId, sourceEntry.id))
  | _ => none

/-- The entries whose pair no entry before them has. -/
def firstLinks : List IfEntry → List (Uuid × Uuid) → List (IfEntry × Uuid)
  | [], _ => []
  | entry :: entries, processedPairs =>
    match linkOf entry with
    | some (targetIfEntryId, pairKey) =>
      if pairKey ∈ processedPairs then firstLinks entries processedPairs
      else (entry, targetIfEntryId) :: firstLinks entries (pairKey :: processedPairs)
    | none => firstLinks entries processedPairs

def createPhysicalLinkEdges : List Edge :=
  (firstLinks ctx.getIfEntriesWithNeighbor []).filterMap fun (sourceEntry, targetIfEntryId) => do
    let sourceInterfaceId ← ctx.resolveInterfaceForIfEntry sourceEntry
    let targetEntry ← ctx.getIfEntryById targetIfEntryId
    let targetInterfaceId ← ctx.resolveInterfaceForIfEntry targetEntry
    if visible sourceInterfaceId && visible targetInterfaceId then
      draw ctx sourceInterfaceId targetInterfaceId targetInterfaceId
        (.physicalLink sourceEntry.id targetEntry.id .lldp)
        (some (ctx.displayName sourceEntry ++ " ↔ " ++ ctx.displayName targetEntry))
    else none

/-! ## All of them -/

def allEdges : List Edge :=
  createInterfaceEdges ctx visible ++ createGroupEdges ctx visible ++ createVmHostEdges ctx visible ++
    (createContainerizedServiceEdges ctx visible ctx.options.request.groupDockerBridgesByHost).1 ++
    createPhysicalLinkEdges ctx visible

/-- Those of which both ends are nodes. -/
def addEdgesToGraph (nodes : List Node) (edges : List Edge) : List Edge :=
  edges.filter fun edge => nodes.any (·.id == edge.source) && nodes.any (·.id == edge.target)

end EdgeBuilder

end Netvisor
