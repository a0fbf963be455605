/-
`update_from_request`: the host row is written if the host has the version the
request was made from, then the children of each kind the request lists are
made those of the list.

It is given as the process of its statements, since no transaction holds them
together. Where it uses what other modules have as programs, the process alone
is that program.
-/
import Netvisor.Hosts.Service
import Netvisor.Lib.Process

namespace Netvisor

/-! ## Texts -/

namespace DateTime

/-- The civil date of a day counted from 1970-01-01. -/
def civilFromDays (days : Int) : Int × Int × Int :=
  let z := days + 719468
  let era := z / 146097
  let doe := z - era * 146097
  let yoe := (doe - doe / 1460 + doe / 36524 - doe / 146096) / 365
  let doy := doe - (365 * yoe + yoe / 4 - yoe / 100)
  let mp := (5 * doy + 2) / 153
  let month := if mp < 10 then mp + 3 else mp - 9
  (yoe + era * 400 + (if month ≤ 2 then 1 else 0), month, doy - (153 * mp + 2) / 5 + 1)

def digits (width : Nat) (n : Nat) : String :=
  let s := toString n
  String.ofList (List.replicate (width - s.length) '0') ++ s

/-- Years of other than four digits have a sign. -/
def displayYear (year : Int) : String :=
  if 0 ≤ year ∧ year ≤ 9999 then digits 4 year.toNat
  else (if year < 0 then "-" else "+") ++ digits 4 year.natAbs

/-- As many digits of the fraction as it needs, in groups of three. -/
def displayFraction (nanos : Nat) : String :=
  if nanos = 0 then ""
  else if nanos % 1000000 = 0 then "." ++ digits 3 (nanos / 1000000)
  else if nanos % 1000 = 0 then "." ++ digits 6 (nanos / 1000)
  else "." ++ digits 9 nanos

def display (t : DateTime) : String :=
  let seconds := t / 1000000000
  let (year, month, day) := civilFromDays (seconds / 86400)
  let second := (seconds % 86400).toNat
  displayYear year ++ "-" ++ digits 2 month.toNat ++ "-" ++ digits 2 day.toNat ++ " " ++ digits 2 (second / 3600)
    ++ ":" ++ digits 2 (second / 60 % 60) ++ ":" ++ digits 2 (second % 60) ++
      displayFraction (t % 1000000000).toNat ++ " UTC"

/-- The database keeps no more than this. -/
def timestampMicros (t : DateTime) : Int := t / 1000

end DateTime

example : DateTime.display 1700000000123000000 = "2023-11-14 22:13:20.123 UTC" := by decide

def capitalize (s : String) : String :=
  match s.toList with
  | [] => ""
  | c :: cs => String.ofList (c.toUpper :: cs)

/-! ## Positions -/

/-- Inputs that may say which position they are for. -/
class PositionedInput (α : Type) where
  id : α → Uuid
  position : α → Option Int
  setPosition : Int → α → α

instance : PositionedInput InterfaceInput where
  id := InterfaceInput.id
  position := InterfaceInput.position
  setPosition position input := { input with position := some position }

instance : PositionedInput ServiceInput where
  id := ServiceInput.id
  position := ServiceInput.position
  setPosition position input := { input with position := some position }

namespace PositionedInput

/-- What is wrong with positions that are not those from 0 on, in any order. -/
def validateSequentialPositions (positions : List Int) (entityName : String) : Option String :=
  let sorted := positions.insertionSort (· ≤ ·)
  match (sorted.zip sorted.tail).find? fun window => window.1 == window.2 with
  | some window =>
    some ("Duplicate " ++ entityName ++ " position: " ++ toString window.1 ++ ". Each " ++ entityName ++
      " must have a unique position.")
  | none =>
    (sorted.zipIdx.find? fun actual => actual.1 != actual.2).map fun (actual, expected) =>
      capitalize entityName ++ " positions must be sequential starting from 0. Expected position " ++
        toString expected ++
        " but found " ++ toString actual ++ ". Positions should be: 0, 1, 2, ..., " ++ toString (positions.length - 1)

variable {α : Type} [PositionedInput α]

/-- What is there keeps its position, what is new comes after it. -/
def assignPositions (existing : List (Uuid × Int)) : (nextPos : Int) → List α → List α
  | _, [] => []
  | nextPos, input :: inputs =>
    match existing.find? fun e => e.1 == id input with
    | some e => setPosition e.2 input :: assignPositions existing nextPos inputs
    | none => setPosition nextPos input :: assignPositions existing (nextPos + 1) inputs

def resolveAndValidate (inputs : List α) (existing : List (Uuid × Int)) (entityName : String) :
    Except String (List α) :=
  let positions := inputs.filterMap position
  if inputs.isEmpty then .ok inputs
  else if 0 < positions.length ∧ positions.length < inputs.length then
    .error (capitalize entityName ++ " positions must be all specified or all omitted. Found " ++
      toString positions.length ++
      " with positions and " ++ toString (inputs.length - positions.length) ++ " without.")
  else if positions.length = inputs.length then
    match validateSequentialPositions positions entityName with
    | some message => .error message
    | none => .ok inputs
  else .ok (assignPositions existing existing.length inputs)

end PositionedInput

/-! ## Fields that an update keeps -/

/-- A MAC address stays once it is known. -/
def Interface.preserveImmutableFields (i existing : Interface) : Interface :=
  { i with
    createdAt := existing.createdAt
    base.macAddress := if existing.base.macAddress.isSome then existing.base.macAddress else i.base.macAddress }

def Service.preserveImmutableFields (s existing : Service) : Service :=
  { s with
    base.source := existing.base.source
    base.virtualization :=
      if s.base.virtualization.isNone then existing.base.virtualization else s.base.virtualization }

/-! ## Deleting children -/

namespace Db

variable (db : Db)

/-- `DELETE` from `interfaces`, which takes along what is bound to them. -/
def deleteInterfaces (ids : List Uuid) : Db :=
  { db with
    interfaces := db.interfaces.filter fun i => !ids.contains i.id
    bindings := db.bindings.filter fun b => b.interfaceId.all fun i => !ids.contains i
    ifEntries := db.ifEntries.modify
      (fun e => { e with base.interfaceId := e.base.interfaceId.filter fun i => !ids.contains i }) fun _ => rfl }

/-- `DELETE` from `ports`, which takes along what is bound to them. -/
def deletePorts (ids : List Uuid) : Db :=
  { db with
    ports := db.ports.filter fun p => !ids.contains p.id
    bindings := db.bindings.filter fun b => b.portId.all fun p => !ids.contains p }

def deleteServices (ids : List Uuid) : Db :=
  { db with
    services := db.services.filter fun s => !ids.contains s.id
    bindings := db.bindings.filter fun b => !ids.contains b.base.serviceId }

end Db

/-! ## Statements -/

namespace HostUpdate

/-- What a statement of an update is for. -/
inductive Phase
  | check
  /-- The host is read again, under its lock. -/
  | current
  | write
  | interfaces
  | ports
  | services
  | reload
deriving DecidableEq, Repr

def Phase.rank : Phase → Nat
  | check => 0
  | current => 1
  | write => 2
  | interfaces => 3
  | ports => 4
  | services => 5
  | reload => 6

instance : Preorder Phase := Preorder.lift Phase.rank

instance (a b : Phase) : Decidable (a ≤ b) := inferInstanceAs (Decidable (a.rank ≤ b.rank))

abbrev Steps := Process Phase Error Db

open Process (statement query)

def validate (message : Option String) : Steps Unit :=
  match message with
  | some message => .fail (.validation message)
  | none => return ()

section

variable {α : Type} [Storable α] (phase : Phase)

def create (entity : α) : Steps α := do
  let entity ← statement phase (Storable.orNew entity)
  statement phase (Storable.create entity)

def update (display : α → String) (entity : α) : Steps α := do
  match ← query phase fun db => (Storable.table (α := α) db).get (Storable.id entity) with
  | none => .fail (.internal ("Could not find " ++ display entity))
  | some _ => statement phase (Storable.update entity)

end

/-! ## Services -/

section

variable (phase : Phase)

def saveChild (existing : List Binding) (child : Binding) : Steps Binding := do
  if child.id == Uuid.nil then
    let id ← statement phase newV4
    create phase { child with id }
  else
    match existing.find? fun c => c.id == child.id with
    | some c => update phase Binding.display { child with createdAt := c.createdAt }
    | none => create phase child

def saveForParent (parentId : Uuid) (children : List Binding) : Steps (List Binding) := do
  let existing ← query phase fun db => db.bindingsOf parentId
  let newIds := (children.filter fun c => c.id != Uuid.nil).map (·.id)
  let idsToDelete := (existing.map (·.id)).filter fun id => !newIds.contains id
  if !idsToDelete.isEmpty then
    let _ ← statement phase (BindingService.deleteMany idsToDelete)
  children.mapM (saveChild phase existing)

def saveBindings (service : Service) : Steps Service := do
  let bindings ← saveForParent phase service.id (ServiceService.children service)
  return { service with base.bindings := bindings }

/-- The rows of the services, then their bindings. -/
def getServices (rows : Db → List Service) : Steps (List Service) := do
  let services ← query phase rows
  if services.isEmpty then return services
  else query phase fun db => services.map db.hydrate

def servicesOfHost (hostId : Uuid) : Steps (List Service) :=
  getServices phase fun db => db.services.select (fun s => s.base.hostId == hostId) Service.createdAt

def getService (id : Uuid) : Steps (Option Service) := do
  match ← query phase fun db => db.services.get id with
  | none => return none
  | some service => query phase fun db => some (db.hydrate service)

def validateBindingsBelongToHost (hostId : Uuid) (bindings : List Binding) : Steps Unit := do
  if bindings.isEmpty then return ()
  else
    let ports ← query phase fun db => db.portsOf hostId
    let interfaces ← query phase fun db => db.interfacesOf hostId
    validate (bindings.findSome? (ServiceService.notOnHost (ports.map (·.id)) (interfaces.map (·.id))))

/-- The ports are read for the text of the error. -/
def validateBindingsAvailable (hostId serviceId : Uuid) (bindings : List Binding) : Steps Unit := do
  if bindings.isEmpty then return ()
  else
    let services ← servicesOfHost phase hostId
    let otherServices := services.filter fun s => s.id != serviceId
    if (bindings.findSome? (ServiceService.portTaken [] otherServices)).isSome then
      let ports ← query phase fun db => db.portsOf hostId
      validate (bindings.findSome? (ServiceService.portTaken ports otherServices))
    else return ()

def validateUnlessDiscovered (service : Service) : Steps Unit :=
  if service.base.source.isFromDiscovery then pure ()
  else validateBindingsAvailable phase service.base.hostId service.id service.base.bindings

def upsertService (existing newData : Service) : Steps Service := do
  let service := ServiceService.merged existing newData
  let _ ← statement phase (Storable.update service)
  saveBindings phase service

def createService (service : Service) : Steps Service := do
  let service ← statement phase (Storable.orNew service)
  let service := ServiceService.deduplicated service
  let existingServices ← servicesOfHost phase service.base.hostId
  match (existingServices.find? fun existing => existing.eq service).filter (ServiceService.mergesInto service) with
  | some existing => upsertService phase existing service
  | none =>
    let service := { service with base.position := existingServices.length }
    validate (ServiceService.validateBindingsNoConflicts [] service.base.bindings)
    validateBindingsBelongToHost phase service.base.hostId service.base.bindings
    validateUnlessDiscovered phase service
    let created ← statement phase (Storable.create service)
    saveBindings phase created

def updateService (service : Service) : Steps Service := do
  match ← getService phase service.id with
  | none => .fail (.internal "Could not find service")
  | some _ =>
    let service := ServiceService.deduplicated service
    validate (ServiceService.validateBindingsNoConflicts [] service.base.bindings)
    validateBindingsBelongToHost phase service.base.hostId service.base.bindings
    validateBindingsAvailable phase service.base.hostId service.id service.base.bindings
    let updated ← statement phase (Storable.update service)
    saveBindings phase updated

end

/-! ### Alone they are the programs of the services -/

section

variable {α : Type} [Storable α] {phase : Phase}

theorem get_bind {β : Type} {f : Db → Store β} (db : Db) : (get >>= f) db = f db db := rfl

theorem map_get_bind {β γ : Type} {g : Db → β} {f : β → Store γ} (db : Db) : (g <$> get >>= f) db = f (g db) db := rfl

@[simp] theorem run_validate (message : Option String) : (validate message).run = Netvisor.validate message := by
  cases message <;> rfl

@[simp] theorem run_create (entity : α) : (create phase entity).run = CrudService.create entity := by
  simp only [create, CrudService.create, Process.run_bind, Process.run_statement]

@[simp] theorem run_update (display : α → String) (entity : α) :
    (update phase display entity).run = CrudService.update display entity := by
  funext db
  simp only [update, CrudService.update, Storable.getById, bind_assoc, pure_bind, get_bind, Process.run_bind,
    Process.run_query, map_get_bind]
  cases (Storable.table (α := α) db).get (Storable.id entity) with
  | none => rfl
  | some _ => rw [Process.run_statement]

@[simp] theorem run_saveChild (existing : List Binding) (child : Binding) :
    (saveChild phase existing child).run = BindingService.saveChild existing child := by
  simp only [saveChild, BindingService.saveChild, Process.run_ite, Process.run_bind,
    Process.run_statement, run_create]
  cases existing.find? fun c => c.id == child.id with
  | none => simp only [run_create]
  | some c => simp only [run_update, BindingService.update]

@[simp] theorem run_saveForParent (parentId : Uuid) (children : List Binding) :
    (saveForParent phase parentId children).run = BindingService.saveForParent parentId children := by
  funext db
  simp only [saveForParent, BindingService.saveForParent, Process.run_bind, Process.run_query, map_get_bind, get_bind,
    Process.run_mapM, run_saveChild, Process.run_ite, Process.run_statement]

@[simp] theorem run_saveBindings (service : Service) :
    (saveBindings phase service).run = ServiceService.saveBindings service := by
  simp only [saveBindings, ServiceService.saveBindings, Process.run_bind, run_saveForParent, Process.run_pure]

@[simp] theorem run_servicesOfHost (hostId : Uuid) :
    (servicesOfHost phase hostId).run = (fun db => db.servicesOf hostId) <$> get := by
  funext db
  simp only [servicesOfHost, getServices, Process.run_bind, Process.run_query, map_get_bind, Process.run_ite,
    Process.run_pure]
  split
  · next hempty =>
    have hnone : db.servicesOf hostId = [] := by rw [Db.servicesOf, List.isEmpty_iff.mp hempty, List.map_nil]
    change EStateM.Result.ok _ db = EStateM.Result.ok (db.servicesOf hostId) db
    rw [hnone, List.isEmpty_iff.mp hempty]
  · rfl

@[simp] theorem run_getService (id : Uuid) : (getService phase id).run = ServiceService.getById id := by
  funext db
  simp only [getService, ServiceService.getById, Process.run_bind, Process.run_query, map_get_bind, get_bind]
  cases db.services.get id <;> rfl

@[simp] theorem run_validateBindingsBelongToHost (hostId : Uuid) (bindings : List Binding) :
    (validateBindingsBelongToHost phase hostId bindings).run =
    ServiceService.validateBindingsBelongToHost hostId bindings := by
  funext db
  simp only [validateBindingsBelongToHost, ServiceService.validateBindingsBelongToHost, Process.run_ite,
    Process.run_bind, Process.run_query, Process.run_pure, run_validate]
  split
  · next hempty =>
    rw [List.isEmpty_iff.mp hempty]
    rfl
  · rfl

theorem portTaken_isSome (ports ports' : List Port) {others : List Service} (bindings : List Binding) :
    (bindings.findSome? (ServiceService.portTaken ports others)).isSome =
      (bindings.findSome? (ServiceService.portTaken ports' others)).isSome := by
  have h (b : Binding) : (ServiceService.portTaken ports others b).isSome =
      (ServiceService.portTaken ports' others b).isSome := by
    unfold ServiceService.portTaken
    split <;> rfl
  induction bindings with
  | nil => rfl
  | cons b bindings ih =>
    have hb := h b
    simp only [List.findSome?_cons]
    cases h1 : ServiceService.portTaken ports others b with
    | none =>
      cases h2 : ServiceService.portTaken ports' others b with
      | none => exact ih
      | some _ => rw [h1, h2] at hb; cases hb
    | some _ =>
      cases h2 : ServiceService.portTaken ports' others b with
      | none => rw [h1, h2] at hb; cases hb
      | some _ => rfl

@[simp] theorem run_validateBindingsAvailable (hostId serviceId : Uuid) (bindings : List Binding) :
    (validateBindingsAvailable phase hostId serviceId bindings).run =
      ServiceService.validateBindingsAvailable hostId serviceId bindings := by
  funext db
  simp only [validateBindingsAvailable, ServiceService.validateBindingsAvailable, Process.run_ite, Process.run_bind,
    Process.run_query, Process.run_pure, run_validate, run_servicesOfHost]
  split
  · next hempty =>
    rw [List.isEmpty_iff.mp hempty]
    rfl
  · rw [map_get_bind, get_bind]
    split
    · rfl
    · next hnone =>
      rw [portTaken_isSome _ (db.portsOf hostId), Bool.not_eq_true, Option.isSome_eq_false_iff,
        Option.isNone_iff_eq_none]
        at hnone
      rw [hnone]
      rfl

@[simp] theorem run_validateUnlessDiscovered (service : Service) :
    (validateUnlessDiscovered phase service).run = ServiceService.validateUnlessDiscovered service := by
  simp only [validateUnlessDiscovered, ServiceService.validateUnlessDiscovered, Process.run_ite, Process.run_pure,
    run_validateBindingsAvailable]

@[simp] theorem run_upsertService (existing newData : Service) :
    (upsertService phase existing newData).run = ServiceService.upsertService existing newData := by
  simp only [upsertService, ServiceService.upsertService, Process.run_bind, Process.run_statement, run_saveBindings]

@[simp] theorem run_createService (service : Service) :
    (createService phase service).run = ServiceService.create service := by
  simp only [createService, ServiceService.create, Process.run_bind, Process.run_statement, run_servicesOfHost]
  congr 1
  funext service db
  rw [map_get_bind, get_bind]
  simp only [ServiceService.mergeTarget]
  cases ((db.servicesOf (ServiceService.deduplicated service).base.hostId).find? fun existing =>
    existing.eq (ServiceService.deduplicated service)).filter
      (ServiceService.mergesInto (ServiceService.deduplicated service)) with
  | some existing => simp only [run_upsertService]
  | none =>
    simp only [ServiceService.createNew, ServiceService.withNextPosition, Process.run_bind, run_validate,
      run_validateBindingsBelongToHost, run_validateUnlessDiscovered, Process.run_statement, run_saveBindings]

@[simp] theorem run_updateService (service : Service) :
    (updateService phase service).run = ServiceService.update service := by
  simp only [updateService, ServiceService.update, Process.run_bind, run_getService]
  congr 1
  funext found
  cases found with
  | none => rfl
  | some _ =>
    simp only [Process.run_bind, run_validate, run_validateBindingsBelongToHost, run_validateBindingsAvailable,
      Process.run_statement, run_saveBindings]

end

/-! ## The children of the host -/

/-- Delete the children that are not among the inputs, then save one input after
the other, given the child it is for if that is there. -/
def syncChildren {α β : Type} [Storable α] (phase : Phase) (delete : List Uuid → Db → Db) (existing : List α)
    (inputId : β → Uuid) (inputs : List β) (save : Option α → β → DateTime → Steps α) : Steps Unit := do
  let toDelete := (existing.map Storable.id).filter fun id => !(inputs.map inputId).contains id
  if !toDelete.isEmpty then
    statement phase (modify (delete toDelete))
  let _ ← inputs.mapM fun input => do
    let now ← query phase Db.now
    save (existing.find? fun e => Storable.id e == inputId input) input now
  return ()

def resolve {α : Type} [PositionedInput α] (inputs : List α) (existing : List (Uuid × Int)) (entityName : String) :
    Steps (List α) :=
  match PositionedInput.resolveAndValidate inputs existing entityName with
  | .error message => .fail (.validation message)
  | .ok inputs => return inputs

def syncInterfaces (hostId networkId : Uuid) (inputs : List InterfaceInput) : Steps Unit := do
  let existing ← query .interfaces fun db => db.interfacesOf hostId
  let inputs ← resolve inputs (existing.map fun i => (i.id, i.base.position)) "interface"
  syncChildren .interfaces (fun ids db =>
    db.deleteInterfaces ids) existing InterfaceInput.id inputs fun existing input now =>
    let i := input.intoInterface hostId networkId now
    match existing with
    | some existing => update .interfaces Interface.display (i.preserveImmutableFields existing)
    | none => create .interfaces i

def syncPorts (hostId networkId : Uuid) (inputs : List PortInput) : Steps Unit := do
  let existing ← query .ports fun db => db.portsOf hostId
  syncChildren .ports (fun ids db => db.deletePorts ids) existing PortInput.id inputs fun existing input now =>
    let port := input.intoPort hostId networkId now
    match existing with
    | some _ => update .ports Port.display port
    | none => create .ports port

def inputClaims (input : ServiceInput) : List (Uuid × Option Uuid) :=
  input.bindings.filterMap fun b => b.bindingType.claim

/-- The service has a port binding that the input does not have. -/
def isLosing (existing : List Service) (input : ServiceInput) : Bool :=
  (existing.find? fun s => s.id == input.id).any fun s =>
    s.claims.any fun claim => !(inputClaims input).contains claim

/-- Services that lose ports come first, so that others can have these. -/
def orderInputs (existing : List Service) (inputs : List ServiceInput) : List ServiceInput :=
  inputs.filter (isLosing existing) ++ inputs.filter fun input => !isLosing existing input

def syncServices (hostId networkId : Uuid) (inputs : List ServiceInput) : Steps Unit := do
  let existing ← servicesOfHost .services hostId
  let inputs ← resolve inputs (existing.map fun s => (s.id, s.base.position)) "service"
  syncChildren .services (fun ids db => db.deleteServices ids) existing ServiceInput.id (orderInputs existing inputs)
    fun existing input now =>
      let service := input.intoService hostId networkId .manual now
      match existing with
      | some existing => updateService .services (service.preserveImmutableFields existing)
      | none => createService .services service

/-- A kind of children is left alone unless the request lists it. -/
def syncListed {α : Type} (inputs : Option (List α)) (sync : List α → Steps Unit) : Steps Unit :=
  match inputs with
  | some inputs => sync inputs
  | none => return ()

def reload (updated : Host) : Steps HostResponse := do
  let interfaces ← query .reload fun db => db.interfacesOf updated.id
  let ports ← query .reload fun db => db.portsOf updated.id
  let services ← getServices .reload fun db => db.servicesByPosition updated.id
  let ifEntries ← query .reload fun db => db.ifEntriesOf updated.id
  return .fromHostWithChildren updated interfaces ports services ifEntries

/-! ## The update -/

/-- What is wrong with the version the request was made from. -/
def conflict (request : UpdateHostRequest) (existing : Host) : Option String :=
  match request.expectedUpdatedAt with
  | none => none
  | some expected =>
    if existing.updatedAt.timestampMicros != expected.timestampMicros then
      some ("Host was modified by another process (possibly discovery). Please reload and try again. Expected: " ++
        expected.display ++ ", Actual: " ++ existing.updatedAt.display)
    else none

def updatedHost (request : UpdateHostRequest) (existing : Host) (now : DateTime) : Host where
  id := request.id
  createdAt := existing.createdAt
  updatedAt := now
  base :=
    { existing.base with
      name := request.name
      hostname := request.hostname
      description := request.description
      virtualization := request.virtualization
      hidden := request.hidden
      tags := request.tags }

def hostNotFound (id : Uuid) : Error := .internal ("Host '" ++ toString id ++ "' not found")

/-- `HostService::update`. -/
def updateHost (host : Host) : Steps Host := do
  match ← query .current fun db => db.hosts.get host.id with
  | none => .fail (hostNotFound host.id)
  | some _ => statement .write (Storable.update host)

/-- What comes after the host row. -/
def syncHost (request : UpdateHostRequest) (networkId : Uuid) (updated : Host) : Steps HostResponse := do
  syncListed request.interfaces (syncInterfaces updated.id networkId)
  syncListed request.ports (syncPorts updated.id networkId)
  syncListed request.services (syncServices updated.id networkId)
  reload updated

def updateFromRequest (request : UpdateHostRequest) : Steps HostResponse := do
  let (existing, now) ← query .check fun db => (db.hosts.get request.id, db.now)
  match existing with
  | none => .fail (hostNotFound request.id)
  | some existing =>
    match conflict request existing with
    | some message => .fail (.validation message)
    | none =>
      let updated ← updateHost (updatedHost request existing now)
      syncHost request existing.base.networkId updated

end HostUpdate

end Netvisor
