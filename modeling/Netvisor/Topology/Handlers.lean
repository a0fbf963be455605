/-
The endpoints that edit a topology, and the service they go through.

A request names a network, which is the one that is checked; the topology is the
one of the path. How a graph is laid out is left to `buildGraph`.
-/
import Netvisor.Auth.Accounts
import Netvisor.Storage
import Netvisor.Topology.Types

namespace Netvisor

structure TopologyDb where
  db : Db := {}
  groups : Table Group Group.id := {}
  tags : Table Tag Tag.id := {}
  topologies : Table Topology Topology.id := {}

abbrev TopologyStore := EStateM ApiError TopologyDb

/-- What the entities of a network are laid out from, with the graph drawn before. -/
structure BuildGraphParams where
  options : TopologyOptions
  entities : SetEntitiesParams
  oldNodes : List Node := []
  oldEdges : List Edge := []

class TopologyService where
  /-- The category of a registered service definition. -/
  category : ServiceDefinition → ServiceCategory
  buildGraph : BuildGraphParams → List Node × List Edge

/-! ## Queries -/

namespace TopologyDb

variable [TopologyService] (s : TopologyDb)

def getServiceData (networkId : Uuid) (options : TopologyOptions) : List Service :=
  (((s.db.services.select (fun x =>
    x.base.networkId == networkId) Service.createdAt).map s.db.hydrate).filter fun x =>
    !options.request.hideServiceCategories.contains (TopologyService.category x.base.serviceDefinition))

/-- The tags of hosts, services and subnets. -/
def getEntityTags (hosts : List Host) (services : List Service) (subnets : List Subnet) : List Tag :=
  let tagIds := hosts.flatMap (·.base.tags) ++ services.flatMap (·.base.tags) ++ subnets.flatMap (·.base.tags)
  s.tags.select (fun x => tagIds.contains x.id) Tag.createdAt

/-- `get_entity_data`, `get_service_data` and `get_entity_tags` in turn. -/
def getEntityData (networkId : Uuid) (options : TopologyOptions) : SetEntitiesParams :=
  let hosts := s.db.hosts.select (fun x => x.base.networkId == networkId && x.base.hidden == false) Host.createdAt
  let subnets := s.db.subnets.select (fun x => x.base.networkId == networkId) Subnet.createdAt
  let services := s.getServiceData networkId options
  { hosts, services, subnets
    groups := s.groups.select (fun x => x.networkId == networkId) Group.createdAt
    ports := s.db.ports.select (fun x => x.base.networkId == networkId) Port.createdAt
    bindings := s.db.bindings.select (fun x => x.base.networkId == networkId) Binding.createdAt
    interfaces := s.db.interfaces.select (fun x => x.base.networkId == networkId) Interface.createdAt
    ifEntries := s.db.ifEntries.select (fun x => x.base.networkId == networkId) IfEntry.createdAt
    entityTags := s.getEntityTags hosts services subnets }

end TopologyDb

/-! ## Handlers -/

namespace TopologyHandlers

/-- `CrudService::update`. -/
def update (topology : Topology) : TopologyStore Topology := do
  let s ← get
  match s.topologies.get topology.id with
  | none => throw (.internalError ("Could not find " ++ toString topology))
  | some _ =>
    set { s with topologies := s.topologies.update topology }
    return topology

/-- Edit the topology of the path, for who may access the network of the request. -/
def editTopology (entity : AuthenticatedEntity) (networkId id : Uuid)
    (edit : TopologyDb → Topology → Except ApiError Topology) : TopologyStore Unit := do
  authorize .member entity
  if !entity.networkIds.contains networkId then throw (.forbidden "You don't have access to this topology's network")
  else
    let s ← get
    match s.topologies.get id with
    | none => throw (.notFound ("Topology " ++ toString id ++ " not found"))
    | some topology =>
      match edit s topology with
      | .error e => throw e
      | .ok topology => let _ ← update topology

/-- Change the first element that passes `p`. -/
def modifyFirst {α : Type} (p : α → Bool) (f : α → α) : List α → Option (List α)
  | [] => none
  | x :: xs => if p x then some (f x :: xs) else (modifyFirst p f xs).map (x :: ·)

def editNode (nodeId : Uuid) (f : Node → Node) (topology : Topology) : Except ApiError Topology :=
  match modifyFirst (fun n => n.id == nodeId) f topology.base.nodes with
  | none => .error (.notFound ("Node " ++ toString nodeId ++ " not found in topology"))
  | some nodes => .ok { topology with base.nodes := nodes }

section

variable [TopologyService]

def refresh (entity : AuthenticatedEntity) (id : Uuid) (request : TopologyRebuildRequest) : TopologyStore Unit :=
  editTopology entity request.networkId id fun s topology =>
    let entities := s.getEntityData request.networkId request.options
    .ok ({ topology with base.options := request.options }.setEntities entities)

def rebuild (entity : AuthenticatedEntity) (id : Uuid) (request : TopologyRebuildRequest) : TopologyStore Unit :=
  editTopology entity request.networkId id fun s topology =>
    let entities := s.getEntityData request.networkId request.options
    let (nodes, edges) := TopologyService.buildGraph
      { options := request.options, entities, oldNodes := request.nodes, oldEdges := request.edges }
    .ok ((({ topology with base.options := request.options }.setEntities entities).setGraph nodes edges).clearStale
      s.db.now)

end

def updateNodePosition (entity : AuthenticatedEntity) (id : Uuid) (request : TopologyNodePositionUpdate) :
    TopologyStore Unit :=
  editTopology entity request.networkId id fun _ =>
    editNode request.nodeId fun node => { node with position := request.position }

def updateEdgeHandles (entity : AuthenticatedEntity) (id : Uuid) (request : TopologyEdgeHandleUpdate) :
    TopologyStore Unit :=
  editTopology entity request.networkId id fun _ topology =>
    match modifyFirst (fun e => e.id == request.edgeId)
        (fun e => { e with sourceHandle := request.sourceHandle, targetHandle := request.targetHandle })
        topology.base.edges with
    | none => .error (.notFound ("Edge " ++ toString request.edgeId ++ " not found in topology"))
    | some edges => .ok { topology with base.edges := edges }

def updateNodeResize (entity : AuthenticatedEntity) (id : Uuid) (request : TopologyNodeResizeUpdate) :
    TopologyStore Unit :=
  editTopology entity request.networkId id fun _ =>
    editNode request.nodeId fun node => { node with size := request.size, position := request.position }

def updateMetadata (entity : AuthenticatedEntity) (id : Uuid) (request : TopologyMetadataUpdate) :
    TopologyStore Unit :=
  editTopology entity request.networkId id fun _ topology =>
    .ok { topology with base.name := request.name, base.parentId := request.parentId }

/-- Change whether the topology of the path is locked, for who may access its network. -/
def changeLock (entity : AuthenticatedEntity) (id : Uuid) (change : TopologyDb → Topology → Topology) :
    TopologyStore Topology := do
  let s ← get
  match s.topologies.get id with
  | none => throw (.notFound ("Could not find topology " ++ toString id))
  | some topology =>
    if !entity.networkIds.contains topology.base.networkId then
      throw (.forbidden "You don't have access to this topology")
    else update (change s topology)

def lock (entity : AuthenticatedEntity) (id : Uuid) : TopologyStore Topology := do
  authorize .member entity
  match entity.userId with
  | none => throw (.forbidden "User context required")
  | some userId => changeLock entity id fun s topology => topology.lock userId s.db.now

def unlock (entity : AuthenticatedEntity) (id : Uuid) : TopologyStore Topology := do
  authorize .member entity
  changeLock entity id fun _ topology => topology.unlock

end TopologyHandlers

end Netvisor
