/-
The endpoints that delete users or update them as an admin, by the statements
they issue.

A daemon refers to the user who maintains it. A trigger hands the daemons of a
deleted user to the oldest owner left in the organization, and where there is
none the reference keeps the user from being deleted.
-/
import Netvisor.Lib.Process
import Netvisor.Users.Handlers

namespace Netvisor

/-- The accounts, and for each daemon the user who maintains it. -/
structure UserTables where
  accounts : Accounts := {}
  daemonUsers : List Uuid := []

namespace UserTables

def isOwnerOf (organizationId : Uuid) (user : User) : Bool :=
  user.base.organizationId == organizationId && user.base.permissions == .owner

/-- `reassign_daemons_on_user_delete`. -/
def reassignDaemons (users : Table User User.id) (old : User) (daemonUsers : List Uuid) : List Uuid :=
  match (users.select (fun u => isOwnerOf old.base.organizationId u && u.id != old.id) User.createdAt).head? with
  | some owner => daemonUsers.map fun id => if id = old.id then owner.id else id
  | none => daemonUsers

/-- Without a user, the user's keys, and what either may access. -/
def withoutUser (id : Uuid) (accounts : Accounts) : Accounts :=
  let userApiKeys := accounts.userApiKeys.filter fun k => k.base.userId != id
  { accounts with
    userApiKeys
    users := accounts.users.filter fun u => u.id != id
    userNetworkAccess := accounts.userNetworkAccess.filter fun r => r.1 != id
    userApiKeyNetworkAccess := accounts.userApiKeyNetworkAccess.filter fun r => (userApiKeys.get r.1).isSome }

/-- One row of a `DELETE`, with the trigger before it. -/
def deleteRow (s : UserTables) (old : User) : UserTables where
  accounts := withoutUser old.id s.accounts
  daemonUsers := reassignDaemons s.accounts.users old s.daemonUsers

/-- The users with the ids. -/
def named (s : UserTables) (ids : List Uuid) : List User :=
  s.accounts.users.rows.filter fun u => ids.contains u.id

def daemonsReference : ApiError :=
  .internalError ("error returned from database: update or delete on table \"users\" violates foreign key "
    ++ "constraint \"daemons_user_id_fkey\" on table \"daemons\"")

/-- `DELETE FROM users WHERE id = ANY(…)`, with the number of rows deleted. -/
def deleteUsers (ids : List Uuid) : EStateM ApiError UserTables Nat := do
  let s ← get
  let deleted := s.named ids
  let t := deleted.foldl deleteRow s
  if deleted.any fun u => t.daemonUsers.contains u.id then throw daemonsReference
  else
    set t
    return deleted.length

def onAccounts {α : Type} (p : AccountStore α) : EStateM ApiError UserTables α := fun s =>
  match p s.accounts with
  | .ok a accounts => .ok a { s with accounts }
  | .error e accounts => .error e { s with accounts }

end UserTables

/-- What a statement does about users. -/
inductive UserStatement
  | query
  | delete (ids : List Uuid)
  | update (user : User)
  | setNetworkIds

/-- A request under way. -/
abbrev UserProcess := Process UserStatement ApiError UserTables

namespace UserProcess

open UserTables (onAccounts isOwnerOf)
open Process (fail query statement)

variable [EmailRules]

/-- The extractor reads nothing that is modelled here. -/
def authorized (p : PermissionRequirement) (entity : AuthenticatedEntity) : UserProcess Unit :=
  match p.authorized entity with
  | some e => fail e
  | none => return ()

def getById (id : Uuid) : UserProcess (Option User) :=
  statement .query (onAccounts (internally (UserService.getById id)))

def getAll (p : User → Bool) : UserProcess (List User) :=
  statement .query (onAccounts (internally (UserService.getAll p)))

def getOrganizationOwners (organizationId : Uuid) : UserProcess (List User) := getAll (isOwnerOf organizationId)

/-! ## Deleting -/

/-- `validate_delete_access` of a user, which is in no network. -/
def validateDeleteAccess (user : User) (organizationId : Uuid) : UserProcess Unit :=
  if user.base.organizationId != organizationId then fail
    (.entityAccessDenied "Organization" user.base.organizationId)
  else return ()

/-- `CrudService::delete`. -/
def delete (id : Uuid) : UserProcess Unit := do
  match ← getById id with
  | none => fail (.internalError ("users with id " ++ toString id ++ " not found"))
  | some _ =>
    let _ ← statement (.delete [id]) (UserTables.deleteUsers [id])
    return ()

def deleteHandler (organizationId id : Uuid) : UserProcess Unit := do
  match ← getById id with
  | none => fail (.entityNotFound "User" id)
  | some user =>
    validateDeleteAccess user organizationId
    delete id

/-- What both endpoints take from the caller. -/
def caller (entity : AuthenticatedEntity) : UserProcess (Uuid × UserOrgPermissions) := do
  authorized .admin entity
  match entity.organizationId, entity.permissions with
  | none, _ => fail .organizationRequired
  | some _, none => fail .userRequired
  | some organizationId, some permissions => return (organizationId, permissions)

def higherPermissions : ApiError := .unauthorized "You can only delete users with lower permissions than you"

/-- Delete a user. -/
def deleteUser (entity : AuthenticatedEntity) (id : Uuid) : UserProcess Unit := do
  let (organizationId, permissions) ← caller entity
  match ← getById id with
  | none => fail (.internalError ("User " ++ toString id ++ " does not exist"))
  | some user =>
    if permissions < user.base.permissions then fail higherPermissions
    else
      let owners ← getOrganizationOwners organizationId
      if user.base.permissions = .owner ∧ owners.length = 1 then
        fail (.conflict "Can't delete the only owner in an organization.")
      else deleteHandler organizationId id

structure BulkDeleteResponse where
  deletedCount : Nat
  requestedCount : Nat
deriving DecidableEq, Repr

/-- `CrudService::delete_many`, with the number of rows deleted. -/
def deleteMany (ids : List Uuid) : UserProcess Nat :=
  if ids.isEmpty then return 0
  else do
    ids.forM fun id => do
      let _ ← getById id
      return ()
    statement (.delete ids) (UserTables.deleteUsers ids)

def bulkDeleteHandler (organizationId : Uuid) (ids : List Uuid) : UserProcess BulkDeleteResponse :=
  if ids.isEmpty then fail .bulkEmpty
  else do
    let entities ← getAll fun u => ids.contains u.id
    entities.forM fun user => validateDeleteAccess user organizationId
    let deletedCount ← deleteMany (entities.map User.id)
    return { deletedCount, requestedCount := ids.length }

/-- Bulk delete users. -/
def bulkDeleteUsers (entity : AuthenticatedEntity) (ids : List Uuid) : UserProcess BulkDeleteResponse := do
  let (organizationId, permissions) ← caller entity
  let users ← getAll fun u => ids.contains u.id
  if users.any fun u => permissions < u.base.permissions then fail higherPermissions
  else
    let owners ← getOrganizationOwners organizationId
    if owners.all users.contains then fail (.unauthorized "Can't delete all of an organization's owners")
    else bulkDeleteHandler organizationId ids

/-! ## Updating -/

/-- `CrudService::update`. -/
def update (user : User) : UserProcess User := do
  match ← getById user.id with
  | none => fail (.internalError ("Could not find " ++ toString user))
  | some _ => statement (.update user.row) (onAccounts (internally (UserService.store user)))

/-- Update a user as an admin. -/
def adminUpdateUser (entity : AuthenticatedEntity) (id : Uuid) (body : User) : UserProcess User := do
  authorized .admin entity
  match entity.userId, entity.permissions with
  | some adminUserId, some adminPermissions =>
    let request := body.deserialize
    match ← getById id with
    | none => fail (.entityNotFound "User" id)
    | some existing =>
      if UserHandlers.adminUpdateDenied adminUserId adminPermissions id existing request then fail .permissionDenied
      else
        let updated ← update (UserHandlers.preserve existing request)
        statement .setNetworkIds (onAccounts (internally (UserService.setNetworkIds id request.base.networkIds)))
        return updated
  | _, _ => fail .userRequired

end UserProcess

/-- A request to one of the endpoints. -/
inductive UserRequest
  | delete (entity : AuthenticatedEntity) (id : Uuid)
  | bulkDelete (entity : AuthenticatedEntity) (ids : List Uuid)
  | adminUpdate (entity : AuthenticatedEntity) (id : Uuid) (body : User)

namespace UserRequest

def entity : UserRequest → AuthenticatedEntity
  | delete entity _ => entity
  | bulkDelete entity _ => entity
  | adminUpdate entity _ _ => entity

/-- The request as it is answered. -/
def process [EmailRules] : UserRequest → UserProcess Unit
  | delete entity id => UserProcess.deleteUser entity id
  | bulkDelete entity ids => do
    let _ ← UserProcess.bulkDeleteUsers entity ids
    return ()
  | adminUpdate entity id body => do
    let _ ← UserProcess.adminUpdateUser entity id body
    return ()

end UserRequest

end Netvisor
