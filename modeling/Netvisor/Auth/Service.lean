/-
`AuthService` for accounts with a password: registration, the verification and
change of addresses, and the change and reset of passwords.

What changes a user reads the row, works out a new one and writes it back
whole. The first part of each is given on its own, as the program that returns
the row to write, so that others may come between the two.

How passwords are hashed and checked is left to `PasswordRules`.
-/
import Netvisor.Auth.Oidc
import Netvisor.Lib.Assoc
import Netvisor.Users.Handlers

namespace Netvisor

class PasswordRules where
  /-- `hash_password`, with the salt that was drawn. -/
  hashPassword : (salt password : String) → Except String String
  verifyPassword : (password hash : String) → Except String Unit
  /-- What is wrong with the password of a registration. -/
  validate : String → Option String

/-- A token that was mailed to an address, for a user. -/
structure Mail where
  userId : Uuid
  address : EmailAddress
  token : String
deriving DecidableEq, Repr

/-- What takes the mails, and why it refuses one. -/
structure EmailService where
  refuses : Mail → Option String := fun _ => none

/-- The accounts, the mails handed to the email service, newest first, and when
a verification was last mailed again to an address. -/
structure AuthState where
  accounts : Accounts := {}
  emailService : Option EmailService := none
  mails : List Mail := []
  verificationResendCooldown : Assoc EmailAddress DateTime := ∅

abbrev AuthStore := EStateM Failure AuthState

structure RegisterRequest where
  email : EmailAddress
  password : String
  termsAccepted : Bool := false
deriving DecidableEq, Repr

/-- A user with a password, who has yet to verify the address. -/
def UserBase.newPassword (email : EmailAddress) (passwordHash : String) (organizationId : Uuid)
    (permissions : UserOrgPermissions) (networkIds : List Uuid) (termsAcceptedAt : Option DateTime) : UserBase :=
  { email, organizationId, permissions, networkIds, termsAcceptedAt
    passwordHash := some passwordHash
    hasPassword := true }

namespace User

def setPassword (user : User) (passwordHash : String) (now : DateTime) : User :=
  { user with
    updatedAt := now
    base.passwordHash := some passwordHash
    base.hasPassword := true }

def withVerification (user : User) (token : String) (expires : DateTime) : User :=
  { user with
    base.emailVerificationToken := some token
    base.emailVerificationExpires := some expires }

def withReset (user : User) (reset : Option (String × DateTime)) : User :=
  { user with
    base.passwordResetToken := reset.map (·.1)
    base.passwordResetExpires := reset.map (·.2) }

/-- The address is verified, and taken over if it was pending. -/
def verified (user : User) : User :=
  { user with
    base.email := user.base.pendingEmail.getD user.base.email
    base.pendingEmail := none
    base.emailVerified := true
    base.emailVerificationToken := none
    base.emailVerificationExpires := none }

end User

/-- Texts that differ at most in the case of ASCII letters. -/
def eqIgnoreAsciiCase (s t : String) : Bool := s.toList.map Char.toLower == t.toList.map Char.toLower

namespace AuthStore

def inAccounts {α : Type} (p : AccountStore α) : AuthStore α := fun s =>
  match p s.accounts with
  | .ok a accounts => .ok a { s with accounts }
  | .error e accounts => .error (.answered e) { s with accounts }

def fail {α : Type} (message : String) : AuthStore α := throw (.answered (.internalError message))

def now : AuthStore DateTime := return (← get).accounts.now

/-- What does not succeed is answered with its message. -/
def checked {α : Type} : Except String α → AuthStore α
  | .ok a => return a
  | .error message => fail message

/-- The email service takes the mail, or refuses it. -/
def send (mail : Mail) : AuthStore Unit := do
  match (← get).emailService with
  | none => fail "Email service not configured"
  | some emailService =>
    modify fun s => { s with mails := mail :: s.mails }
    match emailService.refuses mail with
    | none => return ()
    | some message => fail message

def requireEmailService : AuthStore Unit := do
  if (← get).emailService.isNone then fail "Email service not configured" else return ()

end AuthStore

namespace AuthService

open AuthStore

def hours (n : Int) : Int := n * 60 * 60 * 1000000000

def verificationTokenExpiryHours : Int := 24

def passwordResetTokenExpiryHours : Int := 1

def resendCooldownSecs : Int := 60

/-- The whole seconds between two instants. -/
def elapsedSecs (since now : DateTime) : Int := (now - since) / 1000000000

def newToken : AuthStore String := return toString (← inAccounts AccountStore.newV4)

variable [EmailRules]

/-- `CrudService::update`. -/
def write (user : User) : AuthStore User := inAccounts (UserService.update user)

/-! ## Registration and verification -/

def sendVerificationEmailInternal (user : User) : AuthStore User := do
  requireEmailService
  let token ← newToken
  let user ← write (user.withVerification token ((← now) + hours verificationTokenExpiryHours))
  send { userId := user.id, address := user.base.email, token }
  return user

/-- `provision_user` with a password. -/
def provisionUser (email : EmailAddress) (passwordHash : String) (params : LoginRegisterParams)
    (termsAcceptedAt : Option DateTime) (pendingSetup : Option PendingSetup) (plan : Option BillingPlan) :
    AccountStore User := do
  let organizationId ← match params.orgId with
    | some orgId => pure orgId
    | none => do
      let organization ← OrganizationService.create ((pendingSetup.map (·.orgName)).getD "My Organization") plan
      pure organization.id
  let permissions := if params.orgId.isNone then .owner else params.permissions.getD .viewer
  UserService.create (UserBase.newPassword email passwordHash organizationId permissions params.networkIds termsAcceptedAt)

variable [PasswordRules]

/-- Register a user; `plan` is that of a new organization. -/
def register (request : RegisterRequest) (params : LoginRegisterParams) (pendingSetup : Option PendingSetup)
    (plan : Option BillingPlan) (salt : String) : AuthStore User := do
  match PasswordRules.validate request.password with
  | some e => fail ("Validation failed: " ++ e)
  | none =>
    let allUsers ← inAccounts (UserService.getAll fun u => u.base.email == request.email)
    if !allUsers.isEmpty then fail "Email address already taken"
    else
      let registeredAt ← now
      let termsAcceptedAt := if request.termsAccepted then some registeredAt else none
      let passwordHash ← checked (PasswordRules.hashPassword salt request.password)
      let user ← inAccounts (provisionUser request.email passwordHash params termsAcceptedAt pendingSetup plan)
      if (← get).emailService.isSome then
        -- the user can ask for another mail
        match ← Program.attempt (sendVerificationEmailInternal user) with
        | .ok user => return user
        | .error _ => return user
      else write { user with base.emailVerified := true }

/-- What `verify_email` writes. -/
def verifyEmailRow (token : String) : AuthStore User := do
  match ← inAccounts (UserService.getOne fun u => u.base.emailVerificationToken == some token) with
  | none => fail "Invalid verification token"
  | some user =>
    match user.base.emailVerificationExpires with
    | none => fail "Invalid verification token"
    | some expires =>
      if (← now) > expires then fail "Verification token has expired. Please request a new one."
      else return user.verified

/-- Verify an address, or change to one. -/
def verifyEmail (token : String) : AuthStore User := do write (← verifyEmailRow token)

def resendVerificationEmail (email : EmailAddress) : AuthStore Unit := do
  let s ← get
  match (s.verificationResendCooldown.lookup email).filter fun last =>
      elapsedSecs last s.accounts.now < resendCooldownSecs with
  | some last =>
    fail ("Please wait " ++ toString (resendCooldownSecs - elapsedSecs last s.accounts.now) ++
      " seconds before requesting another verification email")
  | none =>
    match ← inAccounts (UserService.getOne fun u => u.base.email == email) with
    | none => fail "User not found"
    | some user =>
      if user.base.emailVerified then fail "Email is already verified"
      else
        let _ ← sendVerificationEmailInternal user
        modify fun s =>
          { s with verificationResendCooldown := s.verificationResendCooldown.insert email s.accounts.now }

/-- What `request_email_change` writes, with the token it sends. -/
def emailChangeRow (userId : Uuid) (currentPassword : Option String) (newEmail : EmailAddress) :
    AuthStore (User × String) := do
  requireEmailService
  match ← inAccounts (UserService.getById userId) with
  | none => fail "User not found"
  | some user =>
    if user.base.oidcProvider.isSome then
      fail "Cannot change email for accounts linked to an identity provider"
    else
      match currentPassword, user.base.passwordHash with
      | none, _ => fail "Current password is required to change your email"
      -- the hash is unwrapped
      | some _, none => throw .aborted
      | some current, some passwordHash =>
        checked (PasswordRules.verifyPassword current passwordHash)
        if eqIgnoreAsciiCase newEmail user.base.email then fail "New email must be different from your current email"
        else
          let existing ← inAccounts (UserService.getAll fun u => u.base.email == newEmail)
          if !existing.isEmpty then fail "This email address is already in use"
          else
            let token ← newToken
            let user := user.withVerification token ((← now) + hours verificationTokenExpiryHours)
            return ({ user with base.pendingEmail := some newEmail }, token)

def requestEmailChange (userId : Uuid) (currentPassword : Option String) (newEmail : EmailAddress) :
    AuthStore Unit := do
  let (user, token) ← emailChangeRow userId currentPassword newEmail
  let user ← write user
  send { userId := user.id, address := newEmail, token }

/-! ## Passwords -/

/-- What `update_password` writes. -/
def updatePasswordRow (userId : Uuid) (currentPassword : Option String) (newPassword salt : String) :
    AuthStore User := do
  match ← inAccounts (UserService.getById userId) with
  | none => fail "User not found"
  | some user =>
    match user.base.passwordHash, currentPassword with
    | none, _ => pure ()
    | some _, none => fail "Current password is required to change your password"
    | some passwordHash, some current => checked (PasswordRules.verifyPassword current passwordHash)
    let newHash ← checked (PasswordRules.hashPassword salt newPassword)
    return user.setPassword newHash (← now)

def updatePassword (userId : Uuid) (currentPassword : Option String) (newPassword salt : String) :
    AuthStore User := do
  write (← updatePasswordRow userId currentPassword newPassword salt)

/-- What `initiate_password_reset` writes, with the token it sends; nothing for an address nobody has. -/
def initiateResetRow (email : EmailAddress) : AuthStore (Option (User × String)) := do
  requireEmailService
  match ← inAccounts (UserService.getOne fun u => u.base.email == email) with
  | none => return none
  | some user =>
    let token ← newToken
    return some (user.withReset (some (token, (← now) + hours passwordResetTokenExpiryHours)), token)

def initiatePasswordReset (email : EmailAddress) : AuthStore Unit := do
  match ← initiateResetRow email with
  | none => return ()
  | some (user, token) =>
    let user ← write user
    send { userId := user.id, address := user.base.email, token }

/-- What `complete_password_reset` writes, and whether the token was accepted
or, having expired, is only cleared. -/
def completeResetRow (token newPassword salt : String) : AuthStore (User × Bool) := do
  match ← inAccounts (UserService.getOne fun u => u.base.passwordResetToken == some token) with
  | none => fail "Invalid or expired password reset token"
  | some user =>
    match user.base.passwordResetExpires with
    | none => fail "Invalid password reset token"
    | some expires =>
      if (← now) > expires then return (user.withReset none, false)
      else
        let newHash ← checked (PasswordRules.hashPassword salt newPassword)
        return ((user.setPassword newHash (← now)).withReset none, true)

def completePasswordReset (token newPassword salt : String) : AuthStore User := do
  let (user, accepted) ← completeResetRow token newPassword salt
  let user ← write user
  if accepted then return user else fail "Password reset token has expired"

end AuthService

/-! ## Requests of users -/

namespace AuthHandlers

open AuthStore

variable [EmailRules] [PasswordRules]

/-- The endpoint, asked with a session. -/
def requestEmailChange (userId : Uuid) (currentPassword : Option String) (newEmail : EmailAddress) :
    AuthStore Unit := do
  let entity ← inAccounts (UserHandlers.session userId)
  inAccounts (authorize .isUser entity)
  AuthService.requestEmailChange userId currentPassword newEmail

end AuthHandlers

end Netvisor
