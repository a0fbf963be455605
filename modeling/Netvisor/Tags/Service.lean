/-
Tags of entities: the table of assignments, `EntityTagService`, and the
endpoints that assign tags.

The table holds ids and kinds of entities without a reference to where these
are stored. An assignment is stored at most once, and a row that is there
already counts as not added.
-/
import Mathlib.Data.List.Infix
import Netvisor.Auth.Accounts
import Netvisor.Lib.Failing
import Netvisor.Lib.Table
import Netvisor.Topology.Types

namespace Netvisor

open Failing (Planned statement transaction)

inductive EntityDiscriminants
  | organization | invite | share | network | daemonApiKey | userApiKey | user | tag
  | discovery | daemon
  | host | service | port | binding | interface | ifEntry
  | snmpCredential | subnet | group | topology
  | unknown
deriving DecidableEq, Repr

def EntityDiscriminants.name : EntityDiscriminants → String
  | organization => "Organization" | invite => "Invite" | share => "Share" | network => "Network"
  | daemonApiKey => "DaemonApiKey" | userApiKey => "UserApiKey" | user => "User" | tag => "Tag"
  | discovery => "Discovery" | daemon => "Daemon"
  | host => "Host" | service => "Service" | port => "Port" | binding => "Binding" | interface => "Interface"
  | ifEntry => "IfEntry"
  | snmpCredential => "SnmpCredential" | subnet => "Subnet" | group => "Group" | topology => "Topology"
  | unknown => "Unknown"

def isEntityTaggable : EntityDiscriminants → Bool
  | .host | .service | .subnet | .group | .network | .discovery | .daemon | .daemonApiKey | .userApiKey
  | .snmpCredential => true
  | _ => false

/-- What a service fails with; a `ValidationError` is answered with 400. -/
structure AnyError where
  message : String
  validation : Bool := false
deriving DecidableEq, Repr

def AnyError.toApi (e : AnyError) : ApiError :=
  if e.validation then .badRequest e.message else .internalError e.message

/-- The text occurs in the message. -/
def AnyError.contains (e : AnyError) (text : String) : Bool := decide (text.toList <:+: e.message.toList)

structure EntityTag where
  entityId : Uuid
  entityType : EntityDiscriminants
  tagId : Uuid
deriving DecidableEq, Repr

/-- The tags, and what they are assigned to. -/
structure Tagging where
  tags : Table Tag Tag.id := {}
  entityTags : Table EntityTag id := {}

abbrev TagStore := EStateM AnyError (Planned AnyError Tagging)

namespace Tagging

/-- `INSERT INTO entity_tags`. -/
def createEntityTag (entityTag : EntityTag) : EStateM AnyError Tagging Unit := do
  let s ← get
  match s.entityTags.insert entityTag with
  | none => throw { message := "A tag with this name already exists", validation := true }
  | some entityTags =>
    if (s.tags.get entityTag.tagId).isSome then set { s with entityTags }
    else
      throw
        { message := "error returned from database: insert or update on table \"entity_tags\" violates foreign " ++
            "key constraint \"entity_tags_tag_id_fkey\"" }

/-- `DELETE FROM entity_tags`, with the number of rows deleted. -/
def deleteByFilter (p : EntityTag → Bool) : EStateM AnyError Tagging Nat := do
  let s ← get
  set { s with entityTags := s.entityTags.filter fun x => !p x }
  return (s.entityTags.rows.filter p).length

end Tagging

namespace EntityTagStorage

open Tagging

/-- Whether the tag was added, and not there already. -/
def add (entityId : Uuid) (entityType : EntityDiscriminants) (tagId : Uuid) : TagStore Bool := do
  match ← Program.attempt (statement (createEntityTag { entityId, entityType, tagId })) with
  | .ok _ => return true
  | .error e => if e.contains "already exists" then return false else throw e

/-- Replace the tags of an entity. -/
def set (entityId : Uuid) (entityType : EntityDiscriminants) (tagIds : List Uuid) : TagStore Unit := do
  -- begin
  statement (pure ())
  transaction do
    let _ ← statement (deleteByFilter fun x => x.entityId == entityId && x.entityType == entityType)
    tagIds.forM fun tagId => statement (createEntityTag { entityId, entityType, tagId })
    -- commit
    statement (pure ())

/-- Delete what an entity that is gone was tagged with. -/
def removeAllForEntity (entityId : Uuid) (entityType : EntityDiscriminants) : TagStore Unit := do
  let _ ← statement (deleteByFilter fun x => x.entityId == entityId && x.entityType == entityType)

/-- Add a tag to several entities, with the number of those that did not have it. -/
def bulkAdd (entityIds : List Uuid) (entityType : EntityDiscriminants) (tagId : Uuid) : TagStore Nat :=
  entityIds.foldlM (fun added entityId => do return if ← add entityId entityType tagId then added + 1 else added) 0

def bulkRemove (entityIds : List Uuid) (entityType : EntityDiscriminants) (tagId : Uuid) : TagStore Nat :=
  if entityIds.isEmpty then return 0
  else
    statement (deleteByFilter fun x =>
      entityIds.contains x.entityId && x.entityType == entityType && x.tagId == tagId)

end EntityTagStorage

namespace EntityTagService

/-- What went wrong is put in context, and is no `ValidationError` any more. -/
def inContext {α : Type} (context : String) (p : TagStore α) : TagStore α :=
  Program.mapError (fun e => { message := context ++ ": " ++ e.message }) p

/-- The tag exists and is of the organization. -/
def validateTag (tagId organizationId : Uuid) : TagStore Unit := do
  match ← inContext ("Failed to validate tag " ++ toString tagId) (statement (return (← get).tags.get tagId)) with
  | none => throw { message := "Tag " ++ toString tagId ++ " not found" }
  | some tag =>
    if tag.organizationId != organizationId then
      throw { message := "Tag " ++ toString tagId ++ " does not belong to this organization" }
    else return ()

/-- Replace the tags of an entity, unless there are none to replace them. -/
def setTags (entityId : Uuid) (entityType : EntityDiscriminants) (tagIds : List Uuid) (organizationId : Uuid) :
    TagStore Unit := do
  if tagIds.isEmpty then return ()
  else
    tagIds.forM fun tagId => validateTag tagId organizationId
    inContext "Failed to set tags" (EntityTagStorage.set entityId entityType tagIds)

def bulkAddTag (entityIds : List Uuid) (entityType : EntityDiscriminants) (tagId organizationId : Uuid) :
    TagStore Nat := do
  if entityIds.isEmpty then return 0
  else
    validateTag tagId organizationId
    inContext "Failed to bulk add tag" (EntityTagStorage.bulkAdd entityIds entityType tagId)

def bulkRemoveTag (entityIds : List Uuid) (entityType : EntityDiscriminants) (tagId : Uuid) : TagStore Nat :=
  if entityIds.isEmpty then return 0
  else inContext "Failed to bulk remove tag" (EntityTagStorage.bulkRemove entityIds entityType tagId)

end EntityTagService

/-! ## The endpoints -/

structure BulkTagRequest where
  entityType : EntityDiscriminants
  entityIds : List Uuid
  tagId : Uuid
deriving DecidableEq, Repr

structure SetTagsRequest where
  entityType : EntityDiscriminants
  entityId : Uuid
  tagIds : List Uuid
deriving DecidableEq, Repr

namespace TagHandlers

abbrev Handler := EStateM ApiError (Planned AnyError Tagging)

/-- What a service fails with is answered. -/
def answered {α : Type} (p : TagStore α) : Handler α := fun s =>
  match p s with
  | .ok a t => .ok a t
  | .error e t => .error e.toApi t

/-- Members may tag what is taggable. -/
def authorizeTagging (entity : AuthenticatedEntity) (entityType : EntityDiscriminants) : Handler Unit := do
  authorize .member entity
  if !isEntityTaggable entityType then
    throw (.badRequest ("Entity type " ++ entityType.name ++ " does not support tagging"))
  else return ()

def organizationContext (entity : AuthenticatedEntity) : Handler Uuid :=
  match entity.organizationId with
  | some organizationId => return organizationId
  | none => throw (.forbidden "Organization context required")

def bulkAddTag (entity : AuthenticatedEntity) (request : BulkTagRequest) : Handler Nat := do
  authorizeTagging entity request.entityType
  let organizationId ← organizationContext entity
  answered (EntityTagService.bulkAddTag request.entityIds request.entityType request.tagId organizationId)

def bulkRemoveTag (entity : AuthenticatedEntity) (request : BulkTagRequest) : Handler Nat := do
  authorizeTagging entity request.entityType
  answered (EntityTagService.bulkRemoveTag request.entityIds request.entityType request.tagId)

def setEntityTags (entity : AuthenticatedEntity) (request : SetTagsRequest) : Handler Unit := do
  authorizeTagging entity request.entityType
  let organizationId ← organizationContext entity
  answered (EntityTagService.setTags request.entityId request.entityType request.tagIds organizationId)

end TagHandlers

end Netvisor
