/-
The subscriber of the topologies: what happens to the entities of a network is
folded into its topologies, a batch of events at a time.
-/
import Netvisor.Events
import Netvisor.Lib.Assoc
import Netvisor.Topology.Handlers

namespace Netvisor

/-- The types of entities a topology holds copies of. -/
inductive EntityKind
  | host | interface | service | subnet | group | port | binding | ifEntry
deriving DecidableEq, Repr

/-- The match on `entity_type`. -/
def EntityKind.of? : EntityDiscriminants → Option EntityKind
  | .host => some .host
  | .interface => some .interface
  | .service => some .service
  | .subnet => some .subnet
  | .group => some .group
  | .port => some .port
  | .binding => some .binding
  | .ifEntry => some .ifEntry
  | _ => none

/-- One flag `updated_…` and one set `removed_…` for each kind. -/
structure TopologyChanges where
  updated : EntityKind → Bool := fun _ => false
  removed : EntityKind → List Uuid := fun _ => []
  shouldMarkStale : Bool := false
  clearStale : Bool := false

namespace EntityEvent

variable (event : EntityEvent)

def triggersStale : Bool := event.metadata.triggerStale.getD false

def clearsStale : Bool := event.metadata.clearStale.getD false

/-- Updates of topologies are passed on, and not processed alongside other changes. -/
def updatesTopology : Bool := event.entityType == .topology && event.operation == .updated

def kind : Option EntityKind := EntityKind.of? event.entityType

/-- It removes an entity of kind `k`. -/
def removes (k : EntityKind) : Bool := event.operation == .deleted && event.kind == some k

/-- It is safe to update the entities of kind `k`. -/
def updates (k : EntityKind) : Bool := !event.triggersStale && !event.clearsStale && event.kind == some k

end EntityEvent

/-- Push the ids that are not listed yet. -/
def pushAbsent (ids listed : List Uuid) : List Uuid :=
  ids.foldl (fun listed id => if listed.contains id then listed else listed ++ [id]) listed

namespace TopologyChanges

/-- What one event adds. -/
def add (changes : TopologyChanges) (event : EntityEvent) : TopologyChanges where
  updated k := changes.updated k || event.updates k
  removed k := if event.removes k then pushAbsent [event.entityId] (changes.removed k) else changes.removed k
  shouldMarkStale := changes.shouldMarkStale || event.triggersStale
  clearStale := changes.clearStale || (!event.triggersStale && event.clearsStale)

end TopologyChanges

/-- What an event of a network adds to the changes of the network. -/
def record (updates : Assoc Uuid TopologyChanges) (event : EntityEvent) : Assoc Uuid TopologyChanges :=
  match event.networkId with
  | none => updates
  | some networkId =>
    if event.updatesTopology then updates
    else updates.insert networkId ((updates.getD networkId {}).add event)

/-- `topology_updates`: the changes of each affected network. -/
def collect (events : List EntityEvent) : Assoc Uuid TopologyChanges := events.foldl record ∅

namespace Removed

def ofKind (removed : Removed) : EntityKind → List Uuid
  | .host => removed.hosts
  | .interface => removed.interfaces
  | .service => removed.services
  | .subnet => removed.subnets
  | .group => removed.groups
  | .port => removed.ports
  | .binding => removed.bindings
  | .ifEntry => removed.ifEntries

def push (removed : Removed) (ids : EntityKind → List Uuid) : Removed where
  hosts := pushAbsent (ids .host) removed.hosts
  interfaces := pushAbsent (ids .interface) removed.interfaces
  subnets := pushAbsent (ids .subnet) removed.subnets
  services := pushAbsent (ids .service) removed.services
  groups := pushAbsent (ids .group) removed.groups
  ports := pushAbsent (ids .port) removed.ports
  bindings := pushAbsent (ids .binding) removed.bindings
  ifEntries := pushAbsent (ids .ifEntry) removed.ifEntries

theorem ofKind_push (removed : Removed) (ids : EntityKind → List Uuid) (k : EntityKind) :
    (removed.push ids).ofKind k = pushAbsent (ids k) (removed.ofKind k) := by
  cases k <;> rfl

end Removed

namespace SetEntitiesParams

/-- The ids of the entities of a kind. -/
def idsOf (entities : SetEntitiesParams) : EntityKind → List Uuid
  | .host => entities.hosts.map Host.id
  | .interface => entities.interfaces.map Interface.id
  | .service => entities.services.map Service.id
  | .subnet => entities.subnets.map Subnet.id
  | .group => entities.groups.map Group.id
  | .port => entities.ports.map Port.id
  | .binding => entities.bindings.map Binding.id
  | .ifEntry => entities.ifEntries.map IfEntry.id

/-- Take the kinds that pass `p` from what was fetched; the definitions of tags are not among them. -/
def refresh (entities : SetEntitiesParams) (p : EntityKind → Bool) (fetched : SetEntitiesParams) :
    SetEntitiesParams where
  hosts := if p .host then fetched.hosts else entities.hosts
  interfaces := if p .interface then fetched.interfaces else entities.interfaces
  services := if p .service then fetched.services else entities.services
  subnets := if p .subnet then fetched.subnets else entities.subnets
  groups := if p .group then fetched.groups else entities.groups
  ports := if p .port then fetched.ports else entities.ports
  bindings := if p .binding then fetched.bindings else entities.bindings
  ifEntries := if p .ifEntry then fetched.ifEntries else entities.ifEntries
  entityTags := entities.entityTags

theorem idsOf_refresh (entities : SetEntitiesParams) (p : EntityKind → Bool) (fetched : SetEntitiesParams)
    (k : EntityKind) : (entities.refresh p fetched).idsOf k = if p k then fetched.idsOf k else entities.idsOf k := by
  cases k <;> simp only [refresh, idsOf] <;> split <;> rfl

end SetEntitiesParams

namespace TopologyChanges

/-- Only refresh if there are no removals of that kind. -/
def refreshes (changes : TopologyChanges) (k : EntityKind) : Bool := changes.updated k && (changes.removed k).isEmpty

/-- Mark stale unless the flag is cleared, which only happens on the creation of a topology. -/
def stale (changes : TopologyChanges) (isStale : Bool) : Bool :=
  if changes.clearStale then false else if changes.shouldMarkStale then true else isStale

/-- Apply the changes of its network to a topology. -/
def apply (changes : TopologyChanges) (fetched : SetEntitiesParams) (topology : Topology) : Topology :=
  { topology with
    base.removed := topology.base.removed.push changes.removed
    base.isStale := changes.stale topology.base.isStale
    base.entities := topology.base.entities.refresh changes.refreshes fetched }

end TopologyChanges

namespace TopologySubscriber

variable [TopologyService]

/-- The entities of the network, with the services the options of a topology show. -/
def fetch (s : TopologyDb) (networkId : Uuid) (options : TopologyOptions) : SetEntitiesParams :=
  { s.getEntityData networkId {} with services := s.getServiceData networkId options }

/-- Apply the changes to all topologies of the network. -/
def applyToNetwork (networkId : Uuid) (changes : TopologyChanges) : TopologyStore Unit := do
  let s ← get
  let topologies := s.topologies.select (fun topology => topology.base.networkId == networkId) Topology.createdAt
  topologies.forM fun topology => do
    let _ ← TopologyHandlers.update (changes.apply (fetch s networkId topology.base.options) topology)

def handleEvents (events : List EntityEvent) : TopologyStore Unit :=
  (collect events).entries.forM fun ⟨networkId, changes⟩ => applyToNetwork networkId changes

/-- `flush_batch`. -/
def flushBatch (pending : List EntityEvent) : TopologyStore Unit := handleEvents (EntityEvent.unique pending)

end TopologySubscriber

/-- A batch, and the tables it finds when it is flushed. -/
structure Flush where
  world : TopologyDb
  pending : List EntityEvent

end Netvisor
