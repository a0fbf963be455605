/-
The endpoints that every entity has: to create, list, read, update and delete
entities, with the checks of who may do it, statement by statement.

Where an entity belongs is a network or an organization, and the checks are made
on what was read before. The statements that write come later, and name rows by
their ids only. Tags and events are in `Netvisor.Crud.Service`.
-/
import Netvisor.Auth.Entity
import Netvisor.Services.Service
import Netvisor.Storage
import Netvisor.Lib.Process
import Netvisor.Lib.Table

namespace Netvisor

/-! ## Who may access what -/

namespace Validation

def validateNetworkAccess (networkId : Option Uuid) (userNetworkIds : List Uuid) : Except ApiError Unit :=
  match networkId with
  | some networkId =>
    if userNetworkIds.contains networkId then .ok () else .error (.entityAccessDenied "Network" networkId)
  | none => .ok ()

def validateOrganizationAccess (entityOrganizationId : Option Uuid) (userOrganizationId : Uuid) :
    Except ApiError Unit :=
  match entityOrganizationId with
  | some organizationId =>
    if organizationId = userOrganizationId then .ok () else .error (.entityAccessDenied "Organization" organizationId)
  | none => .ok ()

/-- What all operations have in common. -/
def validateAccess (networkId organizationId : Option Uuid) (userNetworkIds : List Uuid) (userOrganizationId : Uuid) :
    Except ApiError Unit := do
  validateNetworkAccess networkId userNetworkIds
  validateOrganizationAccess organizationId userOrganizationId

def validateCreateAccess := validateAccess

def validateReadAccess := validateAccess

def validateDeleteAccess := validateAccess

def validateBulkDeleteAccess := validateAccess

/-- Access to what is there, and to what is to be there. -/
def validateUpdateAccess (existingNetworkId existingOrganizationId newNetworkId newOrganizationId : Option Uuid)
    (userNetworkIds : List Uuid) (userOrganizationId : Uuid) : Except ApiError Unit := do
  validateAccess existingNetworkId existingOrganizationId userNetworkIds userOrganizationId
  validateAccess newNetworkId newOrganizationId userNetworkIds userOrganizationId

end Validation

/-! ## Entities -/

/-- What the endpoints know of a kind of entity, with the service for it. -/
structure CrudHandlers (T : Type) where
  tableName : String
  entityName : String := tableName
  entityNameSingular : String
  isNetworkKeyed : Bool
  display : T → String
  id : T → Uuid
  createdAt : T → DateTime
  networkId : T → Option Uuid
  organizationId : T → Option Uuid
  setId : Uuid → T → T
  setCreatedAt : DateTime → T → T
  /-- `set_source` with `Manual`. -/
  setManual : T → T
  preserveImmutableFields : T → T → T
  /-- `T::new`. -/
  stamp : Uuid → DateTime → T → T
  validate : T → Except String Unit
  /-- What the database refuses an id twice with. -/
  duplicate : ApiError
  /-- What it refuses to insert an entity with, beside the rows that are there. -/
  insertRefused : T → List T → Option ApiError
  /-- Updates are refused in the words of the database. -/
  updateRefused : T → List T → Option ApiError
  /-- The id in the path is canonical. -/
  id_preserve : ∀ existing entity, id (preserveImmutableFields existing
    (setCreatedAt (createdAt existing) (setId (id existing) entity))) = id existing
  /-- An entity belongs to a network or to an organization. -/
  networkId_isSome : ∀ entity, (networkId entity).isSome = isNetworkKeyed
  organizationId_isSome : ∀ entity, (organizationId entity).isSome = !isNetworkKeyed

/-- An entity that a caller was shown, or that a caller's statement wrote, replaced or deleted. -/
structure Touch (T : Type) where
  caller : AuthenticatedEntity
  entity : T

/-- The table of the entities, and what was done to them and shown of them, newest first. -/
structure CrudStore {T : Type} (c : CrudHandlers T) where
  table : Table T c.id
  touched : List (Touch T) := []

namespace CrudStore

variable {T : Type} {c : CrudHandlers T} (s : CrudStore c)

def touch (caller : AuthenticatedEntity) (entities : List T) : CrudStore c :=
  { s with touched := entities.map (fun entity => { caller, entity }) ++ s.touched }

/-- The rows with the ids. -/
def named (ids : List Uuid) : List T := s.table.rows.filter fun r => ids.contains (c.id r)

/-- `INSERT`. -/
def insert (caller : AuthenticatedEntity) (entity : T) : EStateM ApiError (CrudStore c) Unit := do
  let s ← get
  match s.table.insert entity, c.insertRefused entity s.table.rows with
  | none, _ => throw c.duplicate
  | some _, some e => throw e
  | some table, none => set ({ s with table }.touch caller [entity])

/-- `UPDATE … WHERE id`, which is no error if the row is missing. -/
def update (caller : AuthenticatedEntity) (entity : T) : EStateM ApiError (CrudStore c) Unit := do
  let s ← get
  if (s.table.get (c.id entity)).isNone then return ()
  else
    match c.updateRefused entity s.table.rows with
    | some e => throw e
    | none => set (({ s with table := s.table.update entity }).touch caller (entity :: s.named [c.id entity]))

/-- `DELETE … WHERE id`. -/
def delete (caller : AuthenticatedEntity) (ids : List Uuid) : CrudStore c :=
  ({ s with table := s.table.filter fun r => !ids.contains (c.id r) }).touch caller (s.named ids)

end CrudStore

/-- What a statement does to the entities, or that they are shown. -/
inductive CrudStatement (T : Type)
  | query
  | insert (caller : AuthenticatedEntity) (entity : T)
  | update (caller : AuthenticatedEntity) (entity : T)
  | delete (caller : AuthenticatedEntity) (ids : List Uuid)
  | respond (caller : AuthenticatedEntity) (entities : List T)

/-- The filters, the order and the page of a list request. -/
structure ListQuery (T : Type) where
  keep : T → Bool := fun _ => true
  order : List T → List T := fun rows => rows
  order_perm : ∀ rows, (order rows).Perm rows := by exact fun rows => .refl rows
  limit : Option Nat := none
  offset : Nat := 0

def ListQuery.select {T : Type} (q : ListQuery T) (rows : List T) : List T :=
  let rows := (q.order (rows.filter q.keep)).drop q.offset
  match q.limit with
  | some limit => rows.take limit
  | none => rows

/-- A request of a caller. -/
inductive CrudRequest (T : Type)
  /-- With what is drawn, if a new id is. -/
  | create (entity : T) (drawn : Uuid) (now : DateTime)
  | getAll (query : ListQuery T)
  | getById (id : Uuid)
  | update (id : Uuid) (entity : T)
  | delete (id : Uuid)
  | bulkDelete (ids : List Uuid)

namespace CrudHandlers

open Process (fail query statement)
open Validation

variable {T : Type} (c : CrudHandlers T)

/-- A request under way. -/
abbrev CrudProcess (c : CrudHandlers T) := Process (CrudStatement T) ApiError (CrudStore c)

/-! ## Parts -/

def authorized (p : PermissionRequirement) (caller : AuthenticatedEntity) : CrudProcess c Unit :=
  match p.authorized caller with
  | some e => fail e
  | none => return ()

def check (result : Except ApiError Unit) : CrudProcess c Unit :=
  match result with
  | .ok _ => return ()
  | .error e => fail e

def organization (caller : AuthenticatedEntity) : CrudProcess c Uuid :=
  match caller.organizationId with
  | some organizationId => return organizationId
  | none => fail .organizationRequired

def validateEntity (entity : T) : CrudProcess c Unit :=
  match c.validate entity with
  | .ok _ => return ()
  | .error e => fail (.badRequest (c.entityName ++ " validation failed: " ++ e))

def getById (id : Uuid) : CrudProcess c (Option T) := query .query fun s => s.table.get id

def respond (caller : AuthenticatedEntity) (entities : List T) : CrudProcess c Unit :=
  statement (.respond caller entities) (modify fun s => s.touch caller entities)

/-- A nil id stands for a new one. -/
def orNew (drawn : Uuid) (now : DateTime) (entity : T) : T :=
  if c.id entity = Uuid.nil then c.stamp drawn now entity else entity

/-- The entity in the request, with what cannot be changed. -/
def edited (existing entity : T) : T :=
  c.preserveImmutableFields existing (c.setCreatedAt (c.createdAt existing) (c.setId (c.id existing) entity))

/-- The rows a caller may list. -/
def base (caller : AuthenticatedEntity) (organizationId : Uuid) (r : T) : Bool :=
  if c.isNetworkKeyed then (c.networkId r).any fun id => caller.networkIds.contains id
  else if c.tableName = "networks" then caller.networkIds.contains (c.id r)
  else c.organizationId r == some organizationId

/-! ## Handlers -/

def createHandler (caller : AuthenticatedEntity) (entity : T) (drawn : Uuid) (now : DateTime) : CrudProcess c Unit := do
  c.authorized .member caller
  let entity := c.setManual entity
  c.validateEntity entity
  let organizationId ← c.organization caller
  c.check (validateCreateAccess (c.networkId entity) (c.organizationId entity) caller.networkIds organizationId)
  let entity := c.orNew drawn now entity
  statement (.insert caller entity) (CrudStore.insert caller entity)
  c.respond caller [entity]

def getAllHandler (caller : AuthenticatedEntity) (q : ListQuery T) : CrudProcess c Unit := do
  c.authorized .viewer caller
  let organizationId ← c.organization caller
  let entities ← query .query fun s => q.select (s.table.rows.filter (c.base caller organizationId))
  c.respond caller entities

def getByIdHandler (caller : AuthenticatedEntity) (id : Uuid) : CrudProcess c Unit := do
  c.authorized .viewer caller
  let organizationId ← c.organization caller
  match ← c.getById id with
  | none => fail (.entityNotFound c.entityNameSingular id)
  | some entity =>
    c.check (validateReadAccess (c.networkId entity) (c.organizationId entity) caller.networkIds organizationId)
    c.respond caller [entity]

/-- `CrudService::update`. -/
def save (caller : AuthenticatedEntity) (entity : T) : CrudProcess c Unit := do
  match ← c.getById (c.id entity) with
  | none => fail (.internalError ("Could not find " ++ c.display entity))
  | some _ => statement (.update caller entity) (CrudStore.update caller entity)

def updateHandler (caller : AuthenticatedEntity) (id : Uuid) (entity : T) : CrudProcess c Unit := do
  c.authorized .member caller
  let organizationId ← c.organization caller
  match ← c.getById id with
  | none => fail (.entityNotFound c.entityNameSingular id)
  | some existing =>
    let entity := c.edited existing entity
    c.validateEntity entity
    c.check (validateUpdateAccess (c.networkId existing) (c.organizationId existing) (c.networkId entity)
      (c.organizationId entity) caller.networkIds organizationId)
    c.save caller entity
    c.respond caller [entity]

/-- `CrudService::delete`. -/
def deleteById (caller : AuthenticatedEntity) (id : Uuid) : CrudProcess c Unit := do
  match ← c.getById id with
  | none => fail (.internalError (c.tableName ++ " with id " ++ toString id ++ " not found"))
  | some _ => statement (.delete caller [id]) (modify fun s => s.delete caller [id])

def deleteHandler (caller : AuthenticatedEntity) (id : Uuid) : CrudProcess c Unit := do
  c.authorized .member caller
  let organizationId ← c.organization caller
  match ← c.getById id with
  | none => fail (.entityNotFound c.entityNameSingular id)
  | some entity =>
    c.check (validateDeleteAccess (c.networkId entity) (c.organizationId entity) caller.networkIds organizationId)
    c.deleteById caller id

/-- `CrudService::delete_many`; what is read of each entity goes into its event. -/
def deleteMany (caller : AuthenticatedEntity) (ids : List Uuid) : CrudProcess c Unit :=
  if ids.isEmpty then return ()
  else do
    ids.forM fun id => do
      let _ ← c.getById id
      return ()
    statement (.delete caller ids) (modify fun s => s.delete caller ids)

def bulkDeleteHandler (caller : AuthenticatedEntity) (ids : List Uuid) : CrudProcess c Unit := do
  c.authorized .member caller
  if ids.isEmpty then fail .bulkEmpty
  else
    let organizationId ← c.organization caller
    let entities ← query .query fun s => s.named ids
    -- all of them before any is deleted
    entities.forM fun entity => c.check
      (validateBulkDeleteAccess (c.networkId entity) (c.organizationId entity) caller.networkIds organizationId)
    c.deleteMany caller (entities.map c.id)

def handle (caller : AuthenticatedEntity) : CrudRequest T → CrudProcess c Unit
  | .create entity drawn now => c.createHandler caller entity drawn now
  | .getAll q => c.getAllHandler caller q
  | .getById id => c.getByIdHandler caller id
  | .update id entity => c.updateHandler caller id entity
  | .delete id => c.deleteHandler caller id
  | .bulkDelete ids => c.bulkDeleteHandler caller ids

/-- The requests that callers make. -/
def start (P : AuthenticatedEntity × CrudRequest T → Prop) (_ : Nat) (r : { r // P r }) : CrudProcess c Unit :=
  c.handle r.val.1 r.val.2

def still (e : Empty) : CrudStore c → CrudStore c := e.elim

end CrudHandlers

/-! ## Ports -/

namespace Port

/-- Another row has the number and protocol on the host. -/
def taken (port : Port) (rows : List Port) : Bool :=
  rows.any fun r => r.id != port.id && r.base.hostId == port.base.hostId && r.base.portType == port.base.portType

/-- Ports as a kind of entity. That the host is on the same network is checked before. -/
def crud : CrudHandlers Port where
  tableName := "ports"
  entityNameSingular := "Port"
  isNetworkKeyed := true
  display := Port.display
  id := Port.id
  createdAt := Port.createdAt
  networkId port := some port.base.networkId
  organizationId _ := none
  setId id port := { port with id }
  setCreatedAt createdAt port := { port with createdAt }
  setManual port := port
  preserveImmutableFields _ port := port
  stamp id now port := { port with id, createdAt := now, updatedAt := now }
  validate _ := .ok ()
  duplicate := .badRequest Constraint.portsPkey.friendlyMessage
  insertRefused port rows :=
    if port.taken rows then some (.badRequest Constraint.portsHostNumberProtocol.friendlyMessage) else none
  updateRefused port rows :=
    if port.taken rows then some (.internalError Constraint.portsHostNumberProtocol.databaseMessage) else none
  id_preserve _ _ := rfl
  networkId_isSome _ := rfl
  organizationId_isSome _ := rfl

end Port

end Netvisor
