/-
The binding endpoints. They write bindings without going through the service,
and check a binding only against those its own `network_id` and `service_id`
lead to.
-/
import Netvisor.Services.Service

namespace Netvisor.BindingHandlers

/-- The bindings of a service with this network id. -/
def bindingsInNetwork (db : Db) (networkId serviceId : Uuid) : List Binding :=
  db.bindings.select (fun b => b.base.networkId == networkId && b.base.serviceId == serviceId) Binding.createdAt

/-- The rules of `ServiceService.validateBindingNoConflict`, one binding left out. -/
def validateNoBindingTypeConflict (binding : Binding) (excludeId : Option Uuid) : Store Unit := do
  let existing := bindingsInNetwork (← get) binding.base.networkId binding.base.serviceId
  match ServiceService.validateBindingNoConflict binding.base.bindingType
      (existing.filter fun b => excludeId != some b.id) with
  | some message => throw (.conflict message)
  | none => return ()

def validateNetworkAccess (networkId : Uuid) (networkIds : List Uuid) : Store Unit := do
  if !networkIds.contains networkId then throw (.accessDenied networkId)

/-- Delete the single-interface bindings an all-interfaces one supersedes. -/
def removeSuperseded (binding : Binding) : Store Unit := do
  let existing := bindingsInNetwork (← get) binding.base.networkId binding.base.serviceId
  let superseded := existing.filter fun b => binding.base.bindingType.supersedes b.base.bindingType
  let _ ← superseded.mapM fun b => BindingService.delete b.id
  return ()

def createBinding (networkIds : List Uuid) (binding : Binding) : Store Binding := do
  validateNoBindingTypeConflict binding none
  removeSuperseded binding
  validateNetworkAccess binding.base.networkId networkIds
  CrudService.create binding

def updateBinding (networkIds : List Uuid) (id : Uuid) (binding : Binding) : Store Binding := do
  validateNoBindingTypeConflict binding (some id)
  match ← Storable.getById (α := Binding) id with
  | none => throw (.notFound "Binding" id)
  | some existing =>
    let binding := { binding with id := existing.id, createdAt := existing.createdAt }
    validateNetworkAccess existing.base.networkId networkIds
    validateNetworkAccess binding.base.networkId networkIds
    BindingService.update binding

def deleteBinding (networkIds : List Uuid) (id : Uuid) : Store Unit := do
  match ← Storable.getById (α := Binding) id with
  | none => throw (.notFound "Binding" id)
  | some existing =>
    validateNetworkAccess existing.base.networkId networkIds
    BindingService.delete id

def bulkDelete (networkIds : List Uuid) (ids : List Uuid) : Store Nat := do
  if ids.isEmpty then throw .bulkEmpty
  let entities ← Storable.getAll (α := Binding) fun b => ids.contains b.id
  let _ ← entities.mapM fun b => validateNetworkAccess b.base.networkId networkIds
  BindingService.deleteMany (entities.map (·.id))

end Netvisor.BindingHandlers
