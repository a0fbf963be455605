/-
Signing in through an identity provider: registration, login and linking.

What a provider answers to the code of a request, and which addresses count as
disposable, is left to `OidcService`. A request that panics is aborted, without
an answer.
-/
import Netvisor.Auth.Accounts

namespace Netvisor

structure OidcProvider where
  slug : String
  name : String
deriving DecidableEq, Repr

structure OidcPendingAuth where
  pkceVerifier : String := ""
  nonce : String := ""
deriving DecidableEq, Repr

structure OidcUserInfo where
  subject : String
  email : Option String := none
deriving DecidableEq, Repr

inductive DeploymentType
  | cloud
  | commercial
  | community
deriving DecidableEq, Repr

structure LoginRegisterParams where
  orgId : Option Uuid := none
  permissions : Option UserOrgPermissions := none
  networkIds : List Uuid := []
deriving DecidableEq, Repr

structure OidcRegisterParams where
  providerSlug : String
  code : String := ""
  billingEnabled : Bool := false
  termsAcceptedAt : Option DateTime := none
  deploymentType : DeploymentType := .community
deriving DecidableEq, Repr

structure PendingSetup where
  orgName : String
deriving DecidableEq, Repr

inductive OidcRegisterResult
  | newUser (user : User)
  | existingUser (user : User)
deriving DecidableEq, Repr

inductive Failure
  | answered (e : ApiError)
  | aborted
deriving DecidableEq, Repr

/-- Run statements whose errors are answered. -/
def answering {α : Type} (p : AccountStore α) : EStateM Failure Accounts α := fun s =>
  match p s with
  | .ok a t => .ok a t
  | .error e t => .error (.answered e) t

/-- The first `n` bytes of a text; there are none if it is shorter, or a character crosses their end. -/
def bytePrefix : Nat → List Char → Option (List Char)
  | 0, _ => some []
  | _ + 1, [] => none
  | n + 1, c :: cs => if c.utf8Size ≤ n + 1 then (c :: ·) <$> bytePrefix (n + 1 - c.utf8Size) cs else none

example : bytePrefix 8 "108234917".toList = some "10823491".toList := by decide

example : bytePrefix 8 "user-42".toList = none := by decide

example : bytePrefix 8 "abcdefgé".toList = none := by decide

/-- A registered user, in the organization of the invitation or a new one. -/
structure ProvisionUserParams where
  email : EmailAddress
  oidcSubject : String
  oidcProvider : Option String
  orgId : Option Uuid
  permissions : Option UserOrgPermissions
  networkIds : List Uuid
  termsAcceptedAt : Option DateTime
  billingEnabled : Bool

structure OidcService where
  providers : List OidcProvider := []
  exchangeCode : OidcProvider → String → OidcPendingAuth → Except String OidcUserInfo
  isEmailUnwanted : String → Bool := fun _ => false
  /-- The plan of an organization on a server without billing. -/
  defaultPlan : BillingPlan := .community

namespace OidcService

variable [EmailRules] (oidc : OidcService)

def fail {α : Type} (message : String) : EStateM Failure Accounts α := throw (.answered (.internalError message))

def getProvider (slug : String) : Option OidcProvider := oidc.providers.find? fun p => p.slug == slug

def providerName (slug : String) : String := ((oidc.getProvider slug).map (·.name)).getD slug

/-- The provider and what it says of the one who presents the code. -/
def exchange (slug code : String) (pendingAuth : OidcPendingAuth) : Except String (OidcProvider × OidcUserInfo) :=
  match oidc.getProvider slug with
  | none => .error ("Provider '" ++ slug ++ "' not found")
  | some provider =>
    match oidc.exchangeCode provider code pendingAuth with
    | .error e => .error e
    | .ok userInfo => .ok (provider, userInfo)

def fallbackEmail (firstBytes : List Char) : EmailAddress := "user" ++ String.ofList firstBytes ++ "@example.com"

/-- The address the provider gave, if there is one and it parses. -/
def registrationEmail (userInfo : OidcUserInfo) (firstBytes : List Char) : EmailAddress :=
  match userInfo.email with
  | none => fallbackEmail firstBytes
  | some email => if (EmailRules.invalid email).isNone then email else fallbackEmail firstBytes

/-- The user is linked to a provider other than this one. -/
def linkedElsewhere (user : User) (slug : String) : Option String := user.base.oidcProvider.filter (· != slug)

def link (user : User) (slug subject : String) (now : DateTime) : User :=
  { user with
    base.oidcProvider := some slug
    base.oidcSubject := some subject
    base.oidcLinkedAt := some now }

def provisionUser (params : ProvisionUserParams) (pendingSetup : Option PendingSetup) : AccountStore User := do
  let organizationId ← match params.orgId with
    | some orgId => pure orgId
    | none => do
      let organization ← OrganizationService.create ((pendingSetup.map (·.orgName)).getD "My Organization")
        (if params.billingEnabled then none else some oidc.defaultPlan)
      pure organization.id
  let permissions := if params.orgId.isNone then .owner else params.permissions.getD .viewer
  UserService.create (UserBase.newOidc params.email params.oidcSubject params.oidcProvider organizationId permissions
    params.networkIds params.termsAcceptedAt (← get).now)

/-- Link the identity to the account that has the address, and sign in to it. -/
def autoLink (existingUser : User) (provider : OidcProvider) (subject : String) :
    EStateM Failure Accounts OidcRegisterResult := do
  match linkedElsewhere existingUser provider.slug with
  | some existingProvider =>
    let name := oidc.providerName existingProvider
    fail ("This account is already linked to " ++ name ++ ". Please sign in with " ++ name ++ " or unlink it first.")
  | none =>
    let updated ← answering (UserService.update (link existingUser provider.slug subject (← get).now))
    return .existingUser updated

/-- Register by address, as nobody has the subject. -/
def registerByEmail (provider : OidcProvider) (userInfo : OidcUserInfo) (firstBytes : List Char)
    (params : LoginRegisterParams) (oidcParams : OidcRegisterParams) (pendingSetup : Option PendingSetup) :
    EStateM Failure Accounts OidcRegisterResult := do
  let email := registrationEmail userInfo firstBytes
  if oidc.isEmailUnwanted email && oidcParams.deploymentType == .cloud then
    fail "Email address uses a disposable domain. Please register with a non-disposable email address."
  else
    match ← answering (UserService.getAll fun u => u.base.email == email) with
    | existingUser :: _ => oidc.autoLink existingUser provider userInfo.subject
    | [] =>
      let user ← answering (oidc.provisionUser
        { email, oidcSubject := userInfo.subject, oidcProvider := some provider.slug, orgId := params.orgId
          permissions := params.permissions, networkIds := params.networkIds
          termsAcceptedAt := oidcParams.termsAcceptedAt, billingEnabled := oidcParams.billingEnabled }
        pendingSetup)
      return .newUser user

/-- Register a new user, or sign in to the account that is already there. -/
def register (pendingAuth : OidcPendingAuth) (params : LoginRegisterParams) (oidcParams : OidcRegisterParams)
    (pendingSetup : Option PendingSetup) : EStateM Failure Accounts OidcRegisterResult := do
  match oidc.exchange oidcParams.providerSlug oidcParams.code pendingAuth with
  | .error e => fail e
  | .ok (provider, userInfo) =>
    match ← answering (UserService.getUserByOidc userInfo.subject) with
    | some existingUser => return .existingUser existingUser
    | none =>
      -- the fallback address takes the first eight bytes, whether it is used or not
      match bytePrefix 8 userInfo.subject.toList with
      | none => throw .aborted
      | some firstBytes => oidc.registerByEmail provider userInfo firstBytes params oidcParams pendingSetup

/-- Sign in to an account that is there. -/
def login (slug code : String) (pendingAuth : OidcPendingAuth) : EStateM Failure Accounts User := do
  match oidc.exchange slug code pendingAuth with
  | .error e => fail e
  | .ok (provider, userInfo) =>
    match ← answering (UserService.getUserByOidc userInfo.subject) with
    | some user => return user
    | none => fail ("No account found with this " ++ provider.name ++ " login. Please register first.")

/-- Link the identity to the user of the session. -/
def linkToUser (slug : String) (userId : Uuid) (code : String) (pendingAuth : OidcPendingAuth) :
    EStateM Failure Accounts User := do
  match oidc.exchange slug code pendingAuth with
  | .error e => fail e
  | .ok (provider, userInfo) =>
    match ← answering (UserService.getUserByOidc userInfo.subject) with
    | some existingUser =>
      if existingUser.id != userId then
        fail ("This " ++ provider.name ++ " account is already linked to another user")
      else return existingUser
    | none =>
      match ← answering (UserService.getById userId) with
      | none => fail "User not found"
      | some user =>
        match userInfo.email.filter fun email => email.toLower != user.base.email.toLower with
        | some email =>
          fail ("The email from your " ++ provider.name ++ " account (" ++ email
            ++ ") doesn't match your Scanopy account email. Please use an account with the same email address.")
        | none =>
          match linkedElsewhere user slug with
          | some existingProvider =>
            fail ("You already have " ++ oidc.providerName existingProvider
              ++ " linked to your account. Please unlink it first before linking " ++ provider.name ++ ".")
          | none => answering (UserService.update (link user provider.slug userInfo.subject (← get).now))

end OidcService

end Netvisor
