/-
The endpoints that update users, and the entity a session stands for.

The checks look at the user with the id of the path, the row that is written is
the one of the request. Fields that are never accepted from a client are reset
when a request is read.
-/
import Netvisor.Auth.Accounts

namespace Netvisor

/-- A user as deserialized from a request, without the fields that are skipped. -/
def User.deserialize (body : User) : User :=
  { body with
    base.passwordHash := none
    base.oidcSubject := none
    base.emailVerificationToken := none
    base.emailVerificationExpires := none
    base.passwordResetToken := none
    base.passwordResetExpires := none
    base.pendingEmail := none }

/-- An error of a service, as an internal one. -/
def internally {α : Type} (p : AccountStore α) : AccountStore α :=
  Program.mapError (fun e => .internalError e.message) p

namespace Accounts

variable (accounts : Accounts)

def networksOf (organizationId : Uuid) : List Uuid :=
  (accounts.networks.rows.filter fun n => n.organizationId == organizationId).map (·.id)

/-- The networks a user was given. -/
def givenTo (userId : Uuid) : List Uuid := (accounts.userNetworkAccess.filter fun r => r.1 == userId).map (·.2)

/-- Owners and admins may access all networks of their organization, others those they were given. -/
def accessible (user : User) : List Uuid :=
  match user.base.permissions with
  | .owner | .admin => accounts.networksOf user.base.organizationId
  | .member | .viewer => accounts.givenTo user.id

end Accounts

namespace UserHandlers

variable [EmailRules]

/-- `extract_auth` of a session, which holds the id of a user. -/
def session (userId : Uuid) : AccountStore AuthenticatedEntity := do
  match ← Program.mapError (fun _ => .notAuthenticated) (UserService.getById userId) with
  | none => throw .notAuthenticated
  | some user =>
    return .user user.id user.base.organizationId user.base.permissions ((← get).accessible user)
      user.base.emailVerified

/-- The fields the endpoints for updates take from the stored user. -/
def preserve (existing request : User) : User :=
  { request with
    base.email := existing.base.email
    base.passwordHash := existing.base.passwordHash
    base.oidcProvider := existing.base.oidcProvider
    base.oidcSubject := existing.base.oidcSubject
    base.oidcLinkedAt := existing.base.oidcLinkedAt }

/-- Update your own user record. -/
def updateUser (entity : AuthenticatedEntity) (id : Uuid) (body : User) : AccountStore User := do
  authorize .isUser entity
  if entity.userId != some id then throw (.unauthorized "You can only update your own user record")
  else
    let request := body.deserialize
    match ← internally (UserService.getById id) with
    | none => throw (.entityNotFound "User" id)
    | some existing =>
      if request.base.organizationId != existing.base.organizationId then throw .permissionDenied
      else if request.base.permissions != existing.base.permissions then throw .permissionDenied
      else internally (UserService.update (preserve existing request))

/-- What an admin may not do to a user. -/
def adminUpdateDenied (adminUserId : Uuid) (adminPermissions : UserOrgPermissions) (id : Uuid)
    (existing request : User) : Bool :=
  adminUserId == id
    || existing.base.permissions ≥ adminPermissions
    || (adminPermissions != .owner && request.base.permissions ≥ adminPermissions)
    || request.base.organizationId != existing.base.organizationId

/-- Update a user as an admin, with the networks the user may access. -/
def adminUpdateUser (entity : AuthenticatedEntity) (id : Uuid) (body : User) : AccountStore User := do
  authorize .admin entity
  match entity.userId, entity.permissions with
  | some adminUserId, some adminPermissions =>
    let request := body.deserialize
    match ← internally (UserService.getById id) with
    | none => throw (.entityNotFound "User" id)
    | some existing =>
      if adminUpdateDenied adminUserId adminPermissions id existing request then throw .permissionDenied
      else
        let updated ← internally (UserService.update (preserve existing request))
        internally (UserService.setNetworkIds id request.base.networkIds)
        return updated
  | _, _ => throw .userRequired

end UserHandlers

end Netvisor
