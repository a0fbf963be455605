/-
Invites to an organization: creating, opening, revoking and using them, and the
registrations that complete a pending invite, by the statements they issue.

Opening the link of an invite keeps what it offers in the session. A
registration takes that from the session and takes the invite out; whether
there still was an invite to take out makes no difference to it.
-/
import Mathlib.Data.List.Infix
import Netvisor.Auth.Service
import Netvisor.Lib.Process

namespace Netvisor

structure InviteBase where
  organizationId : Uuid
  permissions : UserOrgPermissions := .viewer
  networkIds : List Uuid := []
  createdBy : Uuid := Uuid.nil
  expiresAt : DateTime := 0
  sendTo : Option EmailAddress := none
deriving DecidableEq, Repr

structure Invite where
  id : Uuid
  createdAt : DateTime := 0
  base : InviteBase
deriving DecidableEq, Repr

def Invite.isValid (invite : Invite) (now : DateTime) : Bool := now < invite.base.expiresAt

/-- The plans of the organizations, and how the server is set up. -/
class Deployment where
  config : Uuid → PlanConfig
  disableRegistration : Bool := false
  billingEnabled : Bool := false
  deploymentType : DeploymentType := .community
  defaultPlan : BillingPlan := .community
  isEmailUnwanted : EmailAddress → Bool := fun _ => false

structure Session where
  userId : Option Uuid := none
  pendingOrgInvite : Option Uuid := none
  pendingInviteId : Option Uuid := none
  pendingInvitePermissions : Option UserOrgPermissions := none
  pendingNetworkIds : Option (List Uuid) := none
  pendingSetup : Option PendingSetup := none
deriving DecidableEq, Repr

/-- What became of the invites so far. This is no part of the database. -/
structure InviteHistory where
  /-- All invites there have been. -/
  issued : List Invite := []
  /-- The invites requests have used, with the numbers of the requests. -/
  used : List (Invite × Nat) := []
  revoked : List Invite := []
  /-- The invites by which requests have made someone a member, and when. -/
  joined : List (Uuid × Nat × DateTime) := []
deriving DecidableEq, Repr

structure InviteTables where
  accounts : Accounts := {}
  invites : Table Invite Invite.id := {}
  /-- By the browsers that hold them. -/
  sessions : Assoc Uuid Session := ∅
  history : InviteHistory := {}

inductive Redirect
  | home
  | onboarding (orgName invitedBy : String)
  | homeWithError (message : String)
  | alreadyInOrg (message : String)
  /-- Where the browser came from. -/
  | returnUrl
  | returnUrlWithError (message : String) (emailInUse : Bool)
deriving DecidableEq, Repr

inductive Refusal
  | answered (e : ApiError)
  | redirected (location : Redirect)
  /-- A service's error, which the handler may drop. -/
  | failed (message : String)
  | aborted
deriving DecidableEq, Repr

/-- Whose invite a request completes, and with which number. -/
structure Admission where
  request : Nat
  inviteId : Uuid
deriving DecidableEq, Repr

inductive InviteStatement
  /-- What touches neither users nor invites. -/
  | other
  | create (invite : Invite)
  | use (request : Nat) (id : Uuid)
  | revoke (ids : List Uuid)
  /-- A new user, by an invite or as the first of an organization. -/
  | insertUser (admission : Option Admission) (user : User)
  /-- A change of a user, by an invite or not. -/
  | updateUser (admission : Option Admission) (user : User)

namespace InviteTables

/-- Run statements against the accounts. -/
def onAccounts {α : Type} (p : AccountStore α) : EStateM Refusal InviteTables α := fun s =>
  match p s.accounts with
  | .ok a accounts => .ok a { s with accounts }
  | .error e accounts => .error (.failed e.message) { s with accounts }

def InviteHistory.join (admission : Option Admission) (now : DateTime) (history : InviteHistory) : InviteHistory :=
  match admission with
  | some a => { history with joined := (a.inviteId, a.request, now) :: history.joined }
  | none => history

/-- `INSERT INTO invites`. -/
def insertInvite (invite : Invite) : EStateM Refusal InviteTables Unit := do
  let s ← get
  match insertInto "invites" s.invites []
      ((s.accounts.users.get invite.base.createdBy).isSome
        && (s.accounts.organizations.get invite.base.organizationId).isSome) invite with
  | .error e => throw (.failed e.message)
  | .ok invites => set { s with invites, history := { s.history with issued := invite :: s.history.issued } }

/-- The `DELETE` of an invite that is used. -/
def deleteUsed (request : Nat) (id : Uuid) : EStateM Refusal InviteTables Unit :=
  modify fun s =>
    { s with
      invites := s.invites.filter fun i => i.id != id
      history := { s.history with
        used := ((s.invites.get id).map fun i => (i, request)).toList ++ s.history.used } }

/-- Any other `DELETE` of invites. -/
def deleteInvites (ids : List Uuid) : EStateM Refusal InviteTables Unit :=
  modify fun s =>
    { s with
      invites := s.invites.filter fun i => !ids.contains i.id
      history := { s.history with revoked := s.invites.rows.filter (fun i => ids.contains i.id) ++
        s.history.revoked } }

variable [EmailRules]

/-- `INSERT INTO users`. -/
def insertUser (admission : Option Admission) (user : User) : EStateM Refusal InviteTables Unit := do
  let s ← get
  match insertInto "users" s.accounts.users UserService.uniques (UserService.references s.accounts user) user with
  | .error e => throw (.failed e.message)
  | .ok users =>
    set { s with accounts := { s.accounts with users }, history :=
      InviteHistory.join admission s.accounts.now s.history }

/-- `UPDATE users`. -/
def updateUser (admission : Option Admission) (user : User) : EStateM Refusal InviteTables Unit := do
  let s ← get
  match updateIn "users" s.accounts.users UserService.uniques (UserService.references s.accounts user) user with
  | .error e => throw (.failed e.message)
  | .ok users =>
    let admission := if (s.accounts.users.get user.id).isSome then admission else none
    set { s with accounts := { s.accounts with users }, history :=
      InviteHistory.join admission s.accounts.now s.history }

end InviteTables

/-- A request under way. -/
abbrev InviteProcess := Process InviteStatement Refusal InviteTables

namespace InviteProcess

open InviteTables (onAccounts)
open Process (fail query statement attempt)

def answer {α : Type} (e : ApiError) : InviteProcess α := fail (.answered e)

/-- An error of a service, as an internal one. -/
def internally {α : Type} (p : InviteProcess α) : InviteProcess α := do
  match ← attempt p with
  | .ok a => return a
  | .error (.failed message) => answer (.internalError message)
  | .error e => fail e

def authorized (p : PermissionRequirement) (entity : AuthenticatedEntity) : InviteProcess Unit :=
  match p.authorized entity with
  | some e => answer e
  | none => return ()

def newV4 : InviteProcess Uuid := statement .other (onAccounts AccountStore.newV4)

def now : InviteProcess DateTime := query .other (·.accounts.now)

/-! ## The services -/

section Services

variable [EmailRules]

def getUserById (id : Uuid) : InviteProcess (Option User) := statement .other (onAccounts (UserService.getById id))

def getUsers (p : User → Bool) : InviteProcess (List User) := statement .other (onAccounts (UserService.getAll p))

/-- `UserService::create`. -/
def createUser (admission : Option Admission) (base : UserBase) : InviteProcess User := do
  let user : User := { id := ← newV4, createdAt := ← now, updatedAt := ← now, base }
  match ← statement .other (onAccounts (UserService.getOne fun u => u.base.email == base.email)) with
  | some _ => fail (.failed ("User with email " ++ base.email ++ " already exists"))
  | none =>
    statement (.insertUser admission user.row) (InviteTables.insertUser admission user.row)
    if base.networkIds.isEmpty then return user
    else
      statement .other (onAccounts (UserService.setNetworkIds user.id base.networkIds))
      return user

/-- `CrudService::update` of a user. -/
def update (admission : Option Admission) (user : User) : InviteProcess User := do
  match ← getUserById user.id with
  | none => fail (.failed ("Could not find " ++ toString user))
  | some _ =>
    statement (.updateUser admission user.row) (InviteTables.updateUser admission user.row)
    return user

end Services

/-- The stored invite, with the time it is read at. -/
def readInvite (id : Uuid) : InviteProcess (Option Invite × DateTime) :=
  query .other fun s => (s.invites.get id, s.accounts.now)

def getValidInvite (id : Uuid) : InviteProcess Invite := do
  match ← readInvite id with
  | (none, _) => fail (.failed "Invalid or expired invite link")
  | (some invite, now) =>
    if invite.isValid now then return invite
    else fail (.failed "Invite link has expired or reached maximum uses")

/-- Use an invite, which takes it out. -/
def useInvite (request : Nat) (id : Uuid) : InviteProcess Invite := do
  match ← readInvite id with
  | (none, _) => fail (.failed "Invalid or expired invite link")
  | (some invite, now) =>
    if invite.isValid now then
      statement (.use request id) (InviteTables.deleteUsed request id)
      return invite
    else fail (.failed "Invite link has expired")

/-- `CrudService::delete` of an invite. -/
def deleteInvite (id : Uuid) : InviteProcess Unit := do
  match ← readInvite id with
  | (none, _) => fail (.failed ("invites with id " ++ toString id ++ " not found"))
  | (some _, _) => statement (.revoke [id]) (InviteTables.deleteInvites [id])

/-- What passes `p` is deleted, as it was read. -/
def deleteAll (p : DateTime → Invite → Bool) : InviteProcess Unit := do
  let ids ← query .other fun s => (s.invites.rows.filter (p s.accounts.now)).map Invite.id
  if ids.isEmpty then return ()
  else statement (.revoke ids) (InviteTables.deleteInvites ids)

/-- Revoke all invites of an organization. -/
def revokeOrgInvites (organizationId : Uuid) : InviteProcess Unit :=
  deleteAll fun _ invite => invite.base.organizationId == organizationId

/-- Delete the invites that have expired. -/
def cleanupExpired : InviteProcess Unit := deleteAll fun now invite => invite.base.expiresAt < now

/-! ## Creating and revoking -/

structure CreateInviteRequest where
  expirationHours : Option Int := none
  permissions : UserOrgPermissions := .viewer
  networkIds : List Uuid := []
  sendTo : Option EmailAddress := none
deriving DecidableEq, Repr

section Handlers

variable [Deployment]

/-- `RequireFeature` for inviting users; the plan of an organization does not change here. -/
def requireInviteUsers (entity : AuthenticatedEntity) : InviteProcess PlanConfig := do
  authorized .viewer entity
  match entity.permissions, entity.organizationId with
  | none, _ => answer (.internalError "No permissions")
  | some _, none => answer (.internalError "No organization")
  | some _, some organizationId =>
    if (← query .other fun s => s.accounts.organizations.get organizationId).isNone then
      answer (.forbidden "Organization not found")
    else
      let plan := Deployment.config organizationId
      if plan.canInviteUsers then return plan else answer (.forbidden "Your plan does not include inviting users")

variable [EmailRules]

/-- The users that pass `p`, or none if they cannot be read. -/
def usersOrNone (p : User → Bool) : InviteProcess (List User) := do
  match ← attempt (getUsers p) with
  | .ok users => return users
  | .error _ => return []

/-- The seat check, for a plan with a number of seats and no price for more. -/
def checkSeats (plan : PlanConfig) (organizationId : Uuid) : InviteProcess Unit :=
  match plan.includedSeats, plan.seatCents with
  | some maxSeats, none => do
    let currentMembers := (← usersOrNone fun u => u.base.organizationId == organizationId).length
    let pendingInvites ← query .other fun s =>
      (s.invites.rows.filter fun i => i.base.organizationId == organizationId).length
    let totalSeatsUsed := currentMembers + pendingInvites
    if totalSeatsUsed ≥ maxSeats then
      answer (.forbidden ("Seat limit reached (" ++ toString totalSeatsUsed ++ "/" ++ toString maxSeats
        ++ "). Upgrade your plan for more seats, or delete any unused pending invites."))
    else return ()
  | _, _ => return ()

/-- Nobody with the address the invite is sent to has an account. -/
def checkSendTo : Option EmailAddress → InviteProcess Unit
  | none => return ()
  | some sendTo => do
    if (← usersOrNone fun u => u.base.email == sendTo).isEmpty then return ()
    else
      answer (.badRequest ("A user with this email already has an account. They must delete their account before "
        ++ "joining a new organization."))

def defaultExpirationHours : Int := 168

/-- Create an invite. -/
def createInvite (entity : AuthenticatedEntity) (request : CreateInviteRequest) : InviteProcess Invite := do
  authorized .admin entity
  let plan ← requireInviteUsers entity
  match entity.organizationId, entity.userId, entity.permissions with
  | none, _, _ => answer .organizationRequired
  | some _, none, _ => answer .userRequired
  | some _, some _, none => answer (.forbidden "User or API key required")
  | some organizationId, some userId, some permissions =>
    if request.permissions > permissions then
      answer (.forbidden "Cannot create invite with higher permissions than your own")
    else if !request.networkIds.all entity.networkIds.contains then
      answer (.forbidden "Cannot grant access to networks you don't have access to")
    else
      checkSeats plan organizationId
      checkSendTo request.sendTo
      let id ← newV4
      let now ← now
      let invite : Invite :=
        { id, createdAt := now
          base := { organizationId, permissions := request.permissions, networkIds := request.networkIds
                    createdBy := userId, sendTo := request.sendTo
                    expiresAt := now + AuthService.hours (request.expirationHours.getD defaultExpirationHours) } }
      internally (statement (.create invite) (InviteTables.insertInvite invite))
      return invite

end Handlers

/-- A service's error as a bad request. -/
def orBadRequest {α : Type} (p : InviteProcess α) : InviteProcess α := do
  match ← attempt p with
  | .ok a => return a
  | .error (.failed message) => answer (.badRequest message)
  | .error e => fail e

/-- Revoke an invite. -/
def revokeInvite (entity : AuthenticatedEntity) (id : Uuid) : InviteProcess Unit := do
  authorized .admin entity
  match entity.organizationId, entity.userId, entity.permissions with
  | none, _, _ => answer .organizationRequired
  | some _, none, _ => answer .userRequired
  | some _, some _, none => answer (.forbidden "User or API key required")
  | some organizationId, some userId, some permissions =>
    let invite ← orBadRequest (getValidInvite id)
    if invite.base.organizationId != organizationId then answer (.entityAccessDenied "Invite" id)
    else if !(userId == invite.base.createdBy || decide
      (invite.base.permissions < permissions) || permissions == .owner) then
      answer .permissionDenied
    else internally (deleteInvite id)

/-! ## The session -/

/-- A session is read when it is first used, and a browser without one has an empty one. -/
def loadSession (browser : Uuid) : InviteProcess Session := query .other fun s => (s.sessions.lookup browser).getD {}

/-- A session that was changed is stored with an answer that is no server error. -/
def saveSession (browser : Uuid) (session : Session) : InviteProcess Unit :=
  statement .other (modify fun s => { s with sessions := s.sessions.insert browser session })

/-- What the session holds of an invite. -/
structure PendingInvite where
  organizationId : Uuid
  permissions : UserOrgPermissions
  networkIds : List Uuid
  admission : Admission
deriving DecidableEq, Repr

def cleared (session : Session) : Session :=
  { session with
    pendingOrgInvite := none
    pendingInviteId := none
    pendingInvitePermissions := none
    pendingNetworkIds := none }

/-- The pending invite of a session, and the session without it. -/
def processPendingInvite (request : Nat) (session : Session) : InviteProcess (Option PendingInvite × Session) :=
  match session.pendingOrgInvite, session.pendingInviteId, session.pendingInvitePermissions,
    session.pendingNetworkIds with
  | some organizationId, some inviteId, some permissions, some networkIds => do
    -- an invite that cannot be used is logged
    let _ ← attempt (useInvite request inviteId)
    return (some { organizationId, permissions, networkIds, admission := { request, inviteId } }, cleared session)
  | _, _, _, _ => return (none, session)

/-! ## Opening a link -/

section Handlers

variable [EmailRules]

def pending (invite : Invite) (session : Session) : Session :=
  { session with
    pendingOrgInvite := some invite.base.organizationId
    pendingInviteId := some invite.id
    pendingInvitePermissions := some invite.base.permissions
    pendingNetworkIds := some invite.base.networkIds }

/-- Store the session and redirect because of an error. -/
def refuse {α : Type} (browser : Uuid) (session : Session) (location : Redirect) : InviteProcess α := do
  saveSession browser session
  fail (.redirected location)

/-- The invite of someone who has an account. -/
def acceptAsMember (browser : Uuid) (session : Session) (id : Uuid) : InviteProcess Redirect := do
  let _ ← attempt (deleteInvite id)
  refuse browser session (.alreadyInOrg ("You are already a member of an organization. Please leave your current "
    ++ "organization before accepting this invite."))

/-- The invite of someone whose account is not found. -/
def acceptWithoutAccount (request : Nat) (browser : Uuid) (session : Session) (userId : Uuid) :
    InviteProcess Redirect := do
  let (pendingInvite, session) ← processPendingInvite request session
  match pendingInvite with
  | none =>
    saveSession browser session
    return .home
  | some p =>
    match ← attempt (getUserById userId) with
    | .error _ =>
      refuse browser session (.homeWithError ("Failed get user to update organization " ++ toString userId))
    | .ok none =>
      refuse browser session (.homeWithError ("Failed to update organization for user " ++ toString userId))
    | .ok (some user) =>
      match ← attempt (update (some p.admission)
          { user with
            base.organizationId := p.organizationId
            base.permissions := p.permissions
            base.networkIds := p.networkIds }) with
      | .error _ => refuse browser session (.homeWithError ("Failed update user organization " ++ toString userId))
      | .ok _ =>
        saveSession browser session
        return .home

/-- Open the link of an invite. -/
def acceptInviteLink (request : Nat) (browser id : Uuid) : InviteProcess Redirect := do
  match ← attempt (getValidInvite id) with
  | .error _ => fail (.redirected (.homeWithError "Invalid or expired invite link"))
  | .ok invite =>
    let organization ← query .other fun s => s.accounts.organizations.get invite.base.organizationId
    let inviter ← attempt (getUserById invite.base.createdBy)
    let session := pending invite (← loadSession browser)
    match session.userId with
    | some userId =>
      match ← attempt (getUserById userId) with
      | .ok (some _) => acceptAsMember browser session id
      | _ => acceptWithoutAccount request browser session userId
    | none =>
      saveSession browser session
      let invitedBy := match inviter with
        | .ok (some user) => user.base.email
        | _ => "Unknown User"
      return .onboarding ((organization.map (·.name)).getD "Unknown Organization") invitedBy

/-! ## Registering -/

variable [Deployment]

/-- `provision_user`, given what the user is created with in an organization. -/
def provisionUser (pendingInvite : Option PendingInvite) (pendingSetup : Option PendingSetup)
    (base : (organizationId : Uuid) → UserOrgPermissions → (networkIds : List Uuid) → UserBase) :
    InviteProcess User :=
  match pendingInvite with
  | some p => createUser (some p.admission) (base p.organizationId p.permissions p.networkIds)
  | none => do
    let organization ← statement .other (onAccounts (OrganizationService.create
      ((pendingSetup.map (·.orgName)).getD "My Organization")
      (if Deployment.billingEnabled then none else some Deployment.defaultPlan)))
    createUser none (base organization.id .owner [])

/-- A request to register, at a host, with the salt that is drawn for the password. -/
structure Registration where
  request : RegisterRequest
  demoOnlyHost : Bool := false
  salt : String := ""

variable [PasswordRules]

/-- `AuthService::register`, up to the new user, whose address remains to be verified. -/
def registerUser (registration : Registration) (pendingInvite : Option PendingInvite)
    (pendingSetup : Option PendingSetup) : InviteProcess User := do
  let request := registration.request
  match PasswordRules.validate request.password with
  | some e => fail (.failed ("Validation failed: " ++ e))
  | none =>
    let allUsers ← getUsers fun u => u.base.email == request.email
    if !allUsers.isEmpty then fail (.failed "Email address already taken")
    else
      let now ← now
      let termsAcceptedAt := if request.termsAccepted then some now else none
      match PasswordRules.hashPassword registration.salt request.password with
      | .error e => fail (.failed e)
      | .ok passwordHash =>
        provisionUser pendingInvite pendingSetup fun organizationId permissions networkIds =>
          UserBase.newPassword request.email passwordHash organizationId permissions networkIds termsAcceptedAt

/-- What a registration is turned away with before anything is read. -/
def registrationRefused (registration : Registration) : Option ApiError :=
  if registration.demoOnlyHost then some (.forbidden "Account creation is disabled on the demo site")
  else if Deployment.disableRegistration then some (.forbidden "User registration is disabled")
  else if Deployment.billingEnabled && !registration.request.termsAccepted then
    some (.badRequest "Please accept terms and conditions to proceed")
  else if Deployment.isEmailUnwanted registration.request.email && Deployment.deploymentType == .cloud then
    some (.conflict
      "Email address uses a disposable domain. Please register with a non-disposable email address.")
  else none

/-- Register with a password. -/
def register (request : Nat) (browser : Uuid) (registration : Registration) : InviteProcess User :=
  match registrationRefused registration with
  | some e => answer e
  | none => do
    let existing ← internally (getUsers fun u => u.base.email == registration.request.email)
    if !existing.isEmpty then answer (.userEmailInUse registration.request.email)
    else
      let (pendingInvite, session) ← processPendingInvite request (← loadSession browser)
      let pendingSetup := if pendingInvite.isNone then session.pendingSetup else none
      let user ← internally (registerUser registration pendingInvite pendingSetup)
      saveSession browser { session with
        userId := some user.id
        pendingSetup := if pendingSetup.isSome then none else session.pendingSetup }
      return user

/-- Link the identity to the account that has the address, and sign in to it. -/
def autoLink (oidc : OidcService) (existingUser : User) (provider : OidcProvider) (subject : String) :
    InviteProcess User :=
  match OidcService.linkedElsewhere existingUser provider.slug with
  | some existingProvider =>
    let name := oidc.providerName existingProvider
    fail (.failed
      ("This account is already linked to " ++ name ++ ". Please sign in with " ++ name ++ " or unlink it first."))
  | none => do
    let now ← now
    update none (OidcService.link existingUser provider.slug subject now)

/-- `OidcService::register`. -/
def registerOidcUser (oidc : OidcService) (pendingAuth : OidcPendingAuth) (params : OidcRegisterParams)
    (pendingInvite : Option PendingInvite) (pendingSetup : Option PendingSetup) : InviteProcess User :=
  match oidc.exchange params.providerSlug params.code pendingAuth with
  | .error e => fail (.failed e)
  | .ok (provider, userInfo) => do
    match ← statement .other (onAccounts (UserService.getUserByOidc userInfo.subject)) with
    | some existingUser => return existingUser
    | none =>
      match bytePrefix 8 userInfo.subject.toList with
      | none => fail .aborted
      | some firstBytes =>
        let email := OidcService.registrationEmail userInfo firstBytes
        if oidc.isEmailUnwanted email && params.deploymentType == .cloud then
          fail (.failed
            "Email address uses a disposable domain. Please register with a non-disposable email address.")
        else
          match ← getUsers fun u => u.base.email == email with
          | existingUser :: _ => autoLink oidc existingUser provider userInfo.subject
          | [] =>
            let now ← now
            provisionUser pendingInvite pendingSetup fun organizationId permissions networkIds =>
              UserBase.newOidc email userInfo.subject (some provider.slug) organizationId permissions networkIds
                params.termsAcceptedAt now

/-- Register with an identity provider. -/
def handleRegisterFlow (request : Nat) (browser : Uuid) (oidc : OidcService) (pendingAuth : OidcPendingAuth)
    (params : OidcRegisterParams) : InviteProcess Redirect := do
  let (pendingInvite, session) ← processPendingInvite request (← loadSession browser)
  let pendingSetup := if pendingInvite.isNone then session.pendingSetup else none
  match ← attempt (registerOidcUser oidc pendingAuth params pendingInvite pendingSetup) with
  | .error (.failed message) =>
    refuse browser session (.returnUrlWithError ("Failed to register: " ++ message)
      ("already exists".toList <:+: message.toList))
  | .error e => fail e
  | .ok user =>
    saveSession browser { session with userId := some user.id, pendingSetup := none }
    return .returnUrl

end Handlers

end InviteProcess

/-! ## Requests -/

inductive InviteRequest
  | create (entity : AuthenticatedEntity) (request : InviteProcess.CreateInviteRequest)
  | revoke (entity : AuthenticatedEntity) (id : Uuid)
  | revokeAll (organizationId : Uuid)
  | cleanup
  | accept (browser id : Uuid)
  | register (browser : Uuid) (registration : InviteProcess.Registration)
  | registerOidc (browser : Uuid) (oidc : OidcService) (pendingAuth : OidcPendingAuth) (params : OidcRegisterParams)

namespace InviteRequest

variable [EmailRules] [PasswordRules] [Deployment]

open InviteProcess in
/-- The request with the number, as it is answered. -/
def process (n : Nat) : InviteRequest → InviteProcess Unit
  | create entity request => do
    let _ ← createInvite entity request
    return ()
  | revoke entity id => revokeInvite entity id
  | revokeAll organizationId => revokeOrgInvites organizationId
  | cleanup => cleanupExpired
  | accept browser id => do
    let _ ← acceptInviteLink n browser id
    return ()
  | register browser registration => do
    let _ ← InviteProcess.register n browser registration
    return ()
  | registerOidc browser oidc pendingAuth params => do
    let _ ← handleRegisterFlow n browser oidc pendingAuth params
    return ()

end InviteRequest

end Netvisor
