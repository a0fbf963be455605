/-
`ServiceService` and the part of `BindingService` it writes bindings with:
creating, merging, updating and deleting services.

Creating a service that is there already merges the two if both were
discovered. Bindings are saved one at a time after the service, so a failure on
the way leaves what was written until then.
-/
import Netvisor.Services.Bindings
import Netvisor.Storage

namespace Netvisor

def TransportProtocol.lowercase : TransportProtocol → String
  | .udp => "udp"
  | .tcp => "tcp"

def PortConfig.display (p : PortConfig) : String := toString p.number.toNat ++ "/" ++ p.protocol.lowercase

def Port.display (p : Port) : String := p.base.portType.display ++ " (ID: " ++ toString p.id ++ ")"

def Binding.display (b : Binding) : String :=
  match b.base.bindingType with
  | .interface i => "Interface binding " ++ toString b.id ++ " -> " ++ toString i
  | .port p (some i) =>
    "Port binding " ++ toString b.id ++ " -> " ++ toString p ++ " (interface " ++ toString i ++ ")"
  | .port p none => "Port binding " ++ toString b.id ++ " -> " ++ toString p ++ " (all interfaces)"

/-! ## Bindings of a service -/

namespace BindingService

def update (entity : Binding) : Store Binding := CrudService.update Binding.display entity

def delete (id : Uuid) : Store Unit := do
  match ← Storable.getById (α := Binding) id with
  | none => throw (.internal ("bindings with id " ++ toString id ++ " not found"))
  | some _ => modify fun db => db.deleteBindings [id]

def deleteMany (ids : List Uuid) : Store Nat := do
  let db ← get
  set (db.deleteBindings ids)
  return (db.bindings.rows.filter fun b => ids.contains b.id).length

/-- One child of `saveForParent`, given the children stored before. -/
def saveChild (existing : List Binding) (child : Binding) : Store Binding := do
  if child.id == Uuid.nil then
    let id ← newV4
    CrudService.create { child with id }
  else
    match existing.find? fun c => c.id == child.id with
    | some c => update { child with createdAt := c.createdAt }
    | none => CrudService.create child

/-- Make the children those of the parent: delete the rest, then save one after the other. -/
def saveForParent (parentId : Uuid) (children : List Binding) : Store (List Binding) := do
  let existing := (← get).bindingsOf parentId
  let newIds := (children.filter fun c => c.id != Uuid.nil).map (·.id)
  let idsToDelete := (existing.map (·.id)).filter fun id => !newIds.contains id
  if !idsToDelete.isEmpty then
    let _ ← deleteMany idsToDelete
  children.mapM (saveChild existing)

end BindingService

namespace ServiceService

/-! ## Validation -/

/-- What is wrong with a binding on a host with these ports and interfaces. -/
def notOnHost (validPortIds validInterfaceIds : List Uuid) (binding : Binding) : Option String :=
  match binding.base.bindingType with
  | .interface i =>
    if !validInterfaceIds.contains i then
      some ("Interface binding references interface " ++ toString i ++ " which does not belong to this host")
    else none
  | .port p i =>
    if !validPortIds.contains p then
      some ("Port binding references port " ++ toString p ++ " which does not belong to this host")
    else
      match i with
      | some i =>
        if !validInterfaceIds.contains i then
          some ("Port binding references interface " ++ toString i ++ " which does not belong to this host")
        else none
      | none => none

def validateBindingsBelongToHost (hostId : Uuid) (bindings : List Binding) : Store Unit := do
  let db ← get
  validate (bindings.findSome? (notOnHost ((db.portsOf hostId).map (·.id)) ((db.interfacesOf hostId).map (·.id))))

/-- The claims of the services of a host, without those of one service. -/
def claimedByOthers (db : Db) (hostId serviceId : Uuid) : List (Uuid × Option Uuid) :=
  ((db.servicesOf hostId).filter fun s => s.id != serviceId).flatMap Service.claims

/-- The bindings that claim no claimed port, and those that do. -/
def partitionConflictingBindings (hostId serviceId : Uuid) (bindings : List Binding)
    (batchClaimed : List (Uuid × Option Uuid)) : Store (List Binding × List Binding) := do
  let allClaimed := claimedByOthers (← get) hostId serviceId ++ batchClaimed
  return (bindings.filter fun b => !b.conflicts allClaimed, bindings.filter fun b => b.conflicts allClaimed)

/-- The error of a binding to a port that one of the other services has. -/
def portTaken (ports : List Port) (otherServices : List Service) (binding : Binding) : Option String :=
  match binding.portId, otherServices.find? fun s => binding.conflicts s.claims with
  | some portId, some owner =>
    let portDisplay := match ports.find? fun p => p.id == portId with
      | some p => p.display
      | none => toString portId
    some ("Port " ++ portDisplay ++ " is already bound to '" ++ owner.base.name ++ "' on this host. " ++
      "Use 'Transfer Ports' to reassign it, or remove the binding from '" ++ owner.base.name ++ "' first.")
  | _, _ => none

def validateBindingsAvailable (hostId serviceId : Uuid) (bindings : List Binding) : Store Unit := do
  let db ← get
  let otherServices := (db.servicesOf hostId).filter fun s => s.id != serviceId
  validate (bindings.findSome? (portTaken (db.portsOf hostId) otherServices))

/-! ## Operations -/

def getById (id : Uuid) : Store (Option Service) := do
  let db ← get
  return (db.services.get id).map db.hydrate

/-- The sources of a stored and a new service as one. -/
def mergeSource : EntitySource → EntitySource → EntitySource
  | .discoveryWithMatch existingMetadata existingDetails, .discoveryWithMatch newMetadata newDetails =>
    let better := decide (newDetails.confidence.rank > existingDetails.confidence.rank)
    .discoveryWithMatch ((newMetadata ++ existingMetadata).take maxDiscoveryMetadataEntries)
      { confidence := if better then newDetails.confidence else existingDetails.confidence
        reason := if better then newDetails.reason else existingDetails.reason }
  | _, .discoveryWithMatch newMetadata newDetails => .discoveryWithMatch newMetadata newDetails
  | existingSource, _ => existingSource

/-- The stored service with the new data merged in. -/
def merged (existing newData : Service) : Service :=
  { existing with
    base.bindings := mergeBindings existing.base.bindings newData.base.bindings
    base.virtualization := newData.base.virtualization <|> existing.base.virtualization
    base.source := mergeSource existing.base.source newData.base.source }

/-- The bindings of a service, under its id and network. -/
def children (service : Service) : List Binding :=
  service.base.bindings.map fun b => b.withService service.id service.base.networkId

/-- Save the bindings of a stored service. -/
def saveBindings (service : Service) : Store Service := do
  let bindings ← BindingService.saveForParent service.id (children service)
  return { service with base.bindings := bindings }

def upsertService (existing newData : Service) : Store Service := do
  let service := merged existing newData
  let _ ← Storable.update service
  saveBindings service

/-- Whether `create` merges a service into an equal one. -/
def mergesInto (service existing : Service) : Bool :=
  (service.base.source.isFromDiscovery && existing.base.source.isFromDiscovery) || service.id == existing.id

/-- Discovered services are checked before they are created. -/
def validateUnlessDiscovered (service : Service) : Store Unit :=
  if service.base.source.isFromDiscovery then pure ()
  else validateBindingsAvailable service.base.hostId service.id service.base.bindings

/-- The part of `create` for a service that is not merged. -/
def createNew (service : Service) : Store Service := do
  validate (validateBindingsNoConflicts [] service.base.bindings)
  validateBindingsBelongToHost service.base.hostId service.base.bindings
  validateUnlessDiscovered service
  let created ← Storable.create service
  saveBindings created

/-- The first service of the host that is equal, if it is one to merge into. -/
def mergeTarget (db : Db) (service : Service) : Option Service :=
  ((db.servicesOf service.base.hostId).find? fun existing => existing.eq service).filter (mergesInto service)

def deduplicated (service : Service) : Service :=
  { service with base.bindings := deduplicateBindings service.base.bindings }

def withNextPosition (db : Db) (service : Service) : Service :=
  { service with base.position := (db.servicesOf service.base.hostId).length }

def create (service : Service) : Store Service := do
  let service ← Storable.orNew service
  let service := deduplicated service
  let db ← get
  match mergeTarget db service with
  | some existing => upsertService existing service
  | none => createNew (withNextPosition db service)

def update (service : Service) : Store Service := do
  match ← getById service.id with
  | none => throw (.internal "Could not find service")
  | some _ => pure ()
  let service := deduplicated service
  validate (validateBindingsNoConflicts [] service.base.bindings)
  validateBindingsBelongToHost service.base.hostId service.base.bindings
  validateBindingsAvailable service.base.hostId service.id service.base.bindings
  let updated ← Storable.update service
  saveBindings updated

def delete (id : Uuid) : Store Unit := do
  match ← getById id with
  | none => throw (.internal ("Service " ++ toString id ++ " not found"))
  | some _ => modify fun db => db.deleteService id

end ServiceService

end Netvisor
