/-
Who makes a request, and what it takes to be let through: permission levels,
authenticated entities, the requirements endpoints put on them, and the errors
they are turned away with.
-/
import Mathlib.Order.Defs.LinearOrder
import Mathlib.Order.Lattice
import Netvisor.Entities

namespace Netvisor

/-! ## Errors of the API -/

inductive ErrorCode
  | authPermissionDenied
  | authOrganizationRequired
  | authUserContextRequired
  | authDaemonRequired
  | authNotAuthenticated
  | authDaemonKeyNotCreated
  | authDemoMode
  | entityNotFound (entity : String) (id : Uuid)
  | entityAccessDenied (entity : String) (id : Uuid)
  | entityExpired (entity : String)
  | entityDisabled (entity : String)
  | sharePasswordRequired
  | sharePasswordIncorrect
  | shareDomainNotAllowed (domain : String)
  | daemonStandby
  | billingHostLimitReached (limit : Nat)
  | billingFeatureNotAvailable (feature : String)
  | validationBulkEmpty
  | discoveryHistoricalReadOnly
  | discoverySubnetNetworkMismatch (subnet : String)
  | userEmailInUse (email : String)
deriving DecidableEq, Repr

def ErrorCode.interpolatedMessage : ErrorCode → String
  | authPermissionDenied => "You don't have permission to perform this action"
  | authOrganizationRequired => "This operation requires an organization context"
  | authUserContextRequired => "User context required"
  | authDaemonRequired => "Daemon context required"
  | authNotAuthenticated => "Not authenticated"
  | authDaemonKeyNotCreated => "Daemon is trying to register with an API key that has not yet been created"
  | authDemoMode => "This action is disabled in demo mode"
  | entityNotFound entity id => entity ++ " with ID '" ++ toString id ++ "' not found"
  | entityAccessDenied entity _ => "You don't have access to this " ++ entity
  | entityExpired entity => "This " ++ entity ++ " has expired"
  | entityDisabled entity => "This " ++ entity ++ " is disabled"
  | sharePasswordRequired => "Password required for this share"
  | sharePasswordIncorrect => "Incorrect password"
  | shareDomainNotAllowed domain => "Domain '" ++ domain ++ "' not allowed"
  | daemonStandby =>
    "Your plan does not support DaemonPoll mode. The daemon is on standby. Upgrade your plan and restart the daemon to resume."
  | billingHostLimitReached limit =>
    "You've reached the limit of " ++ toString limit ++ " hosts on your current plan. Upgrade for unlimited hosts."
  | billingFeatureNotAvailable feature =>
    "Your current plan does not include " ++ feature ++ ". Upgrade your plan to access this feature."
  | validationBulkEmpty => "No IDs provided for bulk operation"
  | discoveryHistoricalReadOnly => "Historical discovery cannot be modified via API"
  | discoverySubnetNetworkMismatch subnet => "Subnet '" ++ subnet ++ "' is on a different network"
  | userEmailInUse email => "Email '" ++ email ++ "' is already in use"

structure ApiError where
  status : Nat
  message : String
  errorCode : Option ErrorCode := none
deriving DecidableEq, Repr

namespace ApiError

def coded (status : Nat) (code : ErrorCode) : ApiError :=
  { status, message := code.interpolatedMessage, errorCode := some code }

def badRequest (message : String) : ApiError := { status := 400, message }

def unauthorized (message : String) : ApiError := { status := 401, message }

def paymentRequired (message : String) : ApiError := { status := 402, message }

def forbidden (message : String) : ApiError := { status := 403, message }

def notFound (message : String) : ApiError := { status := 404, message }

def conflict (message : String) : ApiError := { status := 409, message }

def internalError (message : String) : ApiError := { status := 500, message }

def permissionDenied : ApiError := coded 403 .authPermissionDenied

def organizationRequired : ApiError := coded 403 .authOrganizationRequired

def userRequired : ApiError := coded 403 .authUserContextRequired

def daemonRequired : ApiError := coded 403 .authDaemonRequired

def notAuthenticated : ApiError := coded 401 .authNotAuthenticated

def daemonKeyNotYetActive : ApiError := coded 401 .authDaemonKeyNotCreated

def demoModeBlocked : ApiError := coded 403 .authDemoMode

def entityNotFound (entity : String) (id : Uuid) : ApiError := coded 404 (.entityNotFound entity id)

def entityAccessDenied (entity : String) (id : Uuid) : ApiError := coded 403 (.entityAccessDenied entity id)

def entityExpired (entity : String) : ApiError := coded 403 (.entityExpired entity)

def entityDisabled (entity : String) : ApiError := coded 403 (.entityDisabled entity)

def sharePasswordRequired : ApiError := coded 403 .sharePasswordRequired

def sharePasswordIncorrect : ApiError := coded 403 .sharePasswordIncorrect

def bulkEmpty : ApiError := coded 400 .validationBulkEmpty

def discoveryHistoricalReadOnly : ApiError := coded 400 .discoveryHistoricalReadOnly

def discoverySubnetNetworkMismatch (subnet : String) : ApiError := coded 400 (.discoverySubnetNetworkMismatch subnet)

def userEmailInUse (email : String) : ApiError := coded 409 (.userEmailInUse email)

end ApiError

/-! ## Permission levels -/

inductive UserOrgPermissions
  | owner
  | admin
  | member
  | viewer
deriving DecidableEq, Repr

namespace UserOrgPermissions

def rank : UserOrgPermissions → Nat
  | owner => 4
  | admin => 3
  | member => 2
  | viewer => 1

theorem rank_injective : Function.Injective rank := by
  intro p q h
  cases p <;> cases q <;> first | rfl | cases h

instance : LinearOrder UserOrgPermissions := LinearOrder.lift' rank rank_injective

instance : ToString UserOrgPermissions where
  toString
    | owner => "Owner"
    | admin => "Admin"
    | member => "Member"
    | viewer => "Viewer"

end UserOrgPermissions

/-! ## Plans -/

inductive BillingPlan
  | community
  | free
  | starter
  | pro
  | team
  | business
  | enterprise
  | demo
  | commercialSelfHosted
deriving DecidableEq, Repr

structure BillingPlanFeatures where
  shareViews : Bool := true
  apiAccess : Bool := true
  embeds : Bool := true
  daemonPoll : Bool := true
deriving DecidableEq, Repr

def BillingPlan.features : BillingPlan → BillingPlanFeatures
  | free => { shareViews := false, apiAccess := false, embeds := false, daemonPoll := false }
  | starter => { apiAccess := false, embeds := false }
  | community | pro | team | business | enterprise | demo | commercialSelfHosted => {}

/-- What a plan includes: no number means that there is no limit, no price that no more can be bought. -/
structure PlanConfig where
  seatCents : Option Int := none
  networkCents : Option Int := none
  hostCents : Option Int := none
  includedSeats : Option Nat := none
  includedNetworks : Option Nat := none
  includedHosts : Option Nat := none
deriving DecidableEq, Repr

def PlanConfig.canInviteUsers (config : PlanConfig) : Bool :=
  if config.includedSeats.isSome then config.seatCents.isSome else true

/-! ## Authenticated entities -/

inductive AuthenticatedEntity
  | user (userId organizationId : Uuid) (permissions : UserOrgPermissions) (networkIds : List Uuid)
      (emailVerified : Bool)
  | daemon (networkId apiKeyId daemonId : Uuid)
  | apiKey (apiKeyId userId organizationId : Uuid) (permissions : UserOrgPermissions) (networkIds : List Uuid)
  | externalService (name : String)
  | system
  | anonymous
deriving DecidableEq, Repr

namespace AuthenticatedEntity

def userId : AuthenticatedEntity → Option Uuid
  | user userId .. => some userId
  | apiKey _ userId .. => some userId
  | _ => none

def organizationId : AuthenticatedEntity → Option Uuid
  | user _ organizationId .. => some organizationId
  | apiKey _ _ organizationId .. => some organizationId
  | _ => none

def permissions : AuthenticatedEntity → Option UserOrgPermissions
  | user _ _ permissions .. => some permissions
  | apiKey _ _ _ permissions _ => some permissions
  | _ => none

/-- The networks a daemon, a user or a key may access. -/
def networkIds : AuthenticatedEntity → List Uuid
  | daemon networkId .. => [networkId]
  | user _ _ _ networkIds _ => networkIds
  | apiKey _ _ _ _ networkIds => networkIds
  | _ => []

/-- Only a user can be unverified. -/
def emailVerified : AuthenticatedEntity → Bool
  | user _ _ _ _ emailVerified => emailVerified
  | _ => true

end AuthenticatedEntity

/-! ## Requirements -/

inductive PermissionRequirement
  | viewer
  | member
  | admin
  | isUser
  | isDaemon
  | or (p q : PermissionRequirement)
deriving DecidableEq, Repr

namespace PermissionRequirement

/-- The level a user or an API key has to have. -/
def checkLevel (level : UserOrgPermissions) (entity : AuthenticatedEntity) : Option ApiError :=
  match entity.permissions with
  | some permissions => if permissions ≥ level then none else some .permissionDenied
  | none => some .permissionDenied

def check : PermissionRequirement → AuthenticatedEntity → Option ApiError
  | viewer, entity => checkLevel .viewer entity
  | member, entity => checkLevel .member entity
  | admin, entity => checkLevel .admin entity
  | isUser, .user .. => none
  | isUser, _ => some .userRequired
  | isDaemon, .daemon .. => none
  | isDaemon, _ => some .daemonRequired
  | or p q, entity => if (p.check entity).isNone || (q.check entity).isNone then none else some .permissionDenied

/-- What `Authorized` turns an authenticated entity away with. -/
def authorized (p : PermissionRequirement) (entity : AuthenticatedEntity) : Option ApiError :=
  match p.check entity with
  | some e => some e
  | none =>
    if !entity.emailVerified then
      some (.forbidden
        "Email verification required. Please verify your email before accessing this resource.")
    else none

end PermissionRequirement

end Netvisor
