/-
What the services of all entities have in common, statement by statement: to
create, update and delete an entity, with its tags and the events about it.

Each statement is committed by itself. The events are published where the
source publishes them, which for several entities to delete is before the
statement that deletes them.
-/
import Netvisor.Events

namespace Netvisor

open Failing (Planned statement within)

def missingReference (table : String) (key : String) : AnyError where
  message := "error returned from database: insert or update on table \"" ++ table ++
    "\" violates foreign key constraint \"" ++
    key ++ "\""

/-- What an event says. -/
structure Announced where
  entityType : EntityDiscriminants
  entityId : Uuid
  operation : EntityOperation
deriving DecidableEq, Repr

/-- A database, the tags, and what was published. -/
structure Ledger (δ : Type) where
  data : δ
  tagging : Tagging := {}
  /-- Newest first. -/
  events : List Announced := []
  now : DateTime := 0
  /-- The ids `Uuid::new_v4` gives next. -/
  drawn : List Uuid := []

abbrev Writes (δ : Type) := EStateM AnyError (Planned AnyError (Ledger δ))

/-- An entity with a table of its own and a service. -/
structure Crud (δ T : Type) where
  entityType : EntityDiscriminants
  tableName : String
  display : T → String
  id : T → Uuid
  /-- `T::new`. -/
  stamp : Uuid → DateTime → T → T
  /-- There is an `EntityTagService`. -/
  taggable : Bool
  /-- How often `get_by_id` reads once it has the row. -/
  reads : Nat
  find : δ → Uuid → Option T
  insert : T → EStateM AnyError δ Unit
  update : T → EStateM AnyError δ Unit
  delete : List Uuid → δ → δ
  find_insert : ∀ {entity d d'}, insert entity d = .ok () d' →
    find d (id entity) = none ∧ (find d' (id entity)).isSome = true
  find_update : ∀ {entity d d'}, update entity d = .ok () d' → (find d (id entity)).isSome = true →
    (find d' (id entity)).isSome = true
  find_delete : ∀ {ids d i}, i ∈ ids → find (delete ids d) i = none

namespace Ledger

variable {δ α : Type}

/-- `SELECT`. -/
def read (f : Ledger δ → α) : Writes δ α := statement (return f (← get))

/-- A statement against the database. -/
def onData (p : EStateM AnyError δ α) : EStateM AnyError (Ledger δ) α := fun l =>
  match p l.data with
  | .ok a data => .ok a { l with data }
  | .error e data => .error e { l with data }

def onTags (p : TagStore α) : Writes δ α := within Ledger.tagging (fun tagging l => { l with tagging }) p

def publish (entityType : EntityDiscriminants) (entityId : Uuid) (operation : EntityOperation) : Writes δ Unit :=
  modify fun s => { s with store.events := { entityType, entityId, operation } :: s.store.events }

/-- `Uuid::new_v4`. -/
def newV4 : Writes δ Uuid := do
  let id := (← get).store.drawn.headD Uuid.nil
  modify fun s => { s with store.drawn := s.store.drawn.tail }
  return id

/-- The tags in the call become those of the entity; without an organization nothing is done. -/
def setTags (entityType : EntityDiscriminants) (entityId : Uuid) (tagIds : List Uuid) (organizationId : Option Uuid) :
    Writes δ Unit :=
  match organizationId with
  | some organizationId => onTags (EntityTagService.setTags entityId entityType tagIds organizationId)
  | none => return ()

end Ledger

namespace Crud

open Ledger

variable {δ T : Type} (c : Crud δ T)

def getById (id : Uuid) : Writes δ (Option T) := do
  match ← read fun l => c.find l.data id with
  | none => return none
  | some entity =>
    (List.replicate c.reads ()).forM fun _ => read fun _ => ()
    return some entity

/-- A nil id stands for a new one. -/
def orNew (entity : T) : Writes δ T := do
  if c.id entity == Uuid.nil then
    let id ← Ledger.newV4
    return c.stamp id (← get).store.now entity
  else return entity

/-- The tags of an entity that has some, if there is a service for them. -/
def saveTags (entity : T) (tags : Option (List Uuid)) (organizationId : Option Uuid) : Writes δ Unit :=
  match c.taggable, tags with
  | true, some tagIds => setTags c.entityType (c.id entity) tagIds organizationId
  | _, _ => return ()

def removeTags (id : Uuid) : Writes δ Unit :=
  if c.taggable then onTags (EntityTagStorage.removeAllForEntity id c.entityType) else return ()

/-- `CrudService::create`, with what `get_tags` gives and the organization of the caller. -/
def create (entity : T) (tags : Option (List Uuid)) (organizationId : Option Uuid) : Writes δ T := do
  let entity ← c.orNew entity
  statement (onData (c.insert entity))
  c.saveTags entity tags organizationId
  publish c.entityType (c.id entity) .created
  return entity

/-- `CrudService::update`. -/
def save (entity : T) (tags : Option (List Uuid)) (organizationId : Option Uuid) : Writes δ T := do
  match ← c.getById (c.id entity) with
  | none => throw { message := "Could not find " ++ c.display entity }
  | some _ =>
    statement (onData (c.update entity))
    c.saveTags entity tags organizationId
    publish c.entityType (c.id entity) .updated
    return entity

/-- `CrudService::delete`. -/
def deleteById (id : Uuid) : Writes δ Unit := do
  match ← c.getById id with
  | none => throw { message := c.tableName ++ " with id " ++ toString id ++ " not found" }
  | some _ =>
    statement (onData (modify (c.delete [id])))
    c.removeTags id
    publish c.entityType id .deleted

/-- What `delete_many` does about one id before anything is deleted. -/
def announceDeleted (id : Uuid) : Writes δ Unit := do
  match ← c.getById id with
  | none => return ()
  | some _ =>
    c.removeTags id
    publish c.entityType id .deleted

/-- `CrudService::delete_many`, with the number of rows deleted. -/
def deleteMany (ids : List Uuid) : Writes δ Nat := do
  if ids.isEmpty then return 0
  else
    ids.forM c.announceDeleted
    statement (onData do
      let d ← get
      set (c.delete ids d)
      return (ids.dedup.filter fun id => (c.find d id).isSome).length)

end Crud

end Netvisor
