/-
The accounts of the server: organizations and their networks, users and their
API keys, and the networks these may access, with the storage of these and the
user service.

A stored user is read back through its email address, which has to parse. What
the parser accepts, and how the database folds case in its index of addresses,
is left to `EmailRules`.
-/
import Netvisor.Auth.Entity
import Netvisor.Lib.Program
import Netvisor.Lib.Table

namespace Netvisor

abbrev EmailAddress := String

class EmailRules where
  /-- Why `EmailAddress::from_str` refuses a text, which it otherwise keeps as it is. -/
  invalid : String → Option String
  /-- `LOWER` of the database. -/
  lower : String → String

/-! ## Rows -/

structure Organization where
  id : Uuid
  name : String := ""
  plan : Option BillingPlan := none
  planStatus : Option String := none
  trialEndDate : Option DateTime := none
  stripeCustomerId : Option String := none
  hasPaymentMethod : Bool := false
deriving DecidableEq, Repr

structure Network where
  id : Uuid
  createdAt : DateTime := 0
  name : String := ""
  organizationId : Uuid
  snmpCredentialId : Option Uuid := none
deriving DecidableEq, Repr

structure UserBase where
  email : EmailAddress
  organizationId : Uuid
  permissions : UserOrgPermissions := .viewer
  passwordHash : Option String := none
  /-- Whether there is a password; no column of the table. -/
  hasPassword : Bool := false
  oidcProvider : Option String := none
  oidcSubject : Option String := none
  oidcLinkedAt : Option DateTime := none
  /-- Kept in a table of its own. -/
  networkIds : List Uuid := []
  termsAcceptedAt : Option DateTime := none
  emailVerified : Bool := false
  emailVerificationToken : Option String := none
  emailVerificationExpires : Option DateTime := none
  passwordResetToken : Option String := none
  passwordResetExpires : Option DateTime := none
  pendingEmail : Option EmailAddress := none
deriving DecidableEq, Repr

/-- A user who signs in through a provider, which has verified the address. -/
def UserBase.newOidc (email : EmailAddress) (oidcSubject : String) (oidcProvider : Option String)
    (organizationId : Uuid) (permissions : UserOrgPermissions) (networkIds : List Uuid)
    (termsAcceptedAt : Option DateTime) (now : DateTime) : UserBase :=
  { email, organizationId, permissions, oidcProvider, networkIds, termsAcceptedAt
    oidcSubject := some oidcSubject
    oidcLinkedAt := some now
    emailVerified := true }

structure User where
  id : Uuid := Uuid.nil
  createdAt : DateTime := 0
  updatedAt : DateTime := 0
  base : UserBase
deriving DecidableEq, Repr

namespace User

instance : ToString User where
  toString user := user.base.email ++ ": " ++ toString user.id

/-- The columns of a user. -/
def row (user : User) : User :=
  { user with base.networkIds := [], base.hasPassword := user.base.passwordHash.isSome }

@[simp] theorem row_id (user : User) : user.row.id = user.id := rfl

/-- What is read of the columns of a user. -/
def read [EmailRules] (user : User) : User :=
  { user with
    base.hasPassword := user.base.passwordHash.isSome
    base.networkIds := []
    base.pendingEmail := user.base.pendingEmail.filter fun s => (EmailRules.invalid s).isNone }

def fromRow [EmailRules] (user : User) : Except ApiError User :=
  match EmailRules.invalid user.base.email with
  | some e => .error (.internalError ("Failed to parse email: " ++ e))
  | none => .ok user.read

/-- The user signs in as this subject of this provider. -/
def Linked (user : User) (provider subject : String) : Prop :=
  user.base.oidcProvider = some provider ∧ user.base.oidcSubject = some subject

instance (user : User) (provider subject : String) : Decidable (user.Linked provider subject) :=
  inferInstanceAs (Decidable (_ ∧ _))

end User

structure UserApiKeyBase where
  /-- The hash of the key. -/
  key : String := ""
  name : String := ""
  userId : Uuid := Uuid.nil
  organizationId : Uuid := Uuid.nil
  permissions : UserOrgPermissions := .viewer
  lastUsed : Option DateTime := none
  expiresAt : Option DateTime := none
  isEnabled : Bool := false
  /-- Kept in a table of its own. -/
  networkIds : List Uuid := []
deriving DecidableEq, Repr

structure UserApiKey where
  id : Uuid := Uuid.nil
  createdAt : DateTime := 0
  updatedAt : DateTime := 0
  base : UserApiKeyBase := {}
deriving DecidableEq, Repr

structure Accounts where
  organizations : Table Organization Organization.id := {}
  networks : Table Network Network.id := {}
  users : Table User User.id := {}
  /-- `user_network_access`: users with the networks they were given, oldest first. -/
  userNetworkAccess : List (Uuid × Uuid) := []
  userApiKeys : Table UserApiKey UserApiKey.id := {}
  /-- `user_api_key_network_access`: keys with the networks they were given. -/
  userApiKeyNetworkAccess : List (Uuid × Uuid) := []
  now : DateTime := 0
  /-- The ids `Uuid::new_v4` gives next. -/
  drawn : List Uuid := []

abbrev AccountStore := EStateM ApiError Accounts

/-! ## Statements -/

section Statements

variable {α : Type} {key : α → Uuid}

/-- The first of the unique constraints the row breaks next to the rows with other keys. -/
def violated (t : Table α key) (uniques : List (String × (α → α → Bool))) (r : α) : Option String :=
  (uniques.find? fun c => t.rows.any fun x => key x != key r && c.2 x r).map (·.1)

def alreadyExists (constraint : String) : ApiError :=
  .badRequest ("A record with these values already exists (" ++ constraint ++ ")")

def duplicateKey (constraint : String) : ApiError :=
  .internalError ("error returned from database: duplicate key value violates unique constraint \""
    ++ constraint ++ "\"")

def danglingReference (table : String) : ApiError :=
  .internalError ("error returned from database: insert or update on table \"" ++ table
    ++ "\" violates foreign key constraint")

/-- `INSERT`. -/
def insertInto (table : String) (t : Table α key) (uniques : List (String × (α → α → Bool)))
    (references : Bool) (r : α) : Except ApiError (Table α key) :=
  match t.insert r, violated t uniques r with
  | none, _ => .error (alreadyExists (table ++ "_pkey"))
  | some _, some c => .error (alreadyExists c)
  | some t, none => if references then .ok t else .error (danglingReference table)

/-- `UPDATE`, which is no error if the row is missing. -/
def updateIn (table : String) (t : Table α key) (uniques : List (String × (α → α → Bool)))
    (references : Bool) (r : α) : Except ApiError (Table α key) :=
  if (t.get (key r)).isNone then .ok t
  else
    match violated t uniques r with
    | some c => .error (duplicateKey c)
    | none => if references then .ok (t.update r) else .error (danglingReference table)

/-- Give an owner access to each of the networks. -/
def grantAccess (table constraint : String) (owner : Bool) (hasNetwork : Uuid → Bool) (id : Uuid) :
    List (Uuid × Uuid) → List Uuid → Except ApiError (List (Uuid × Uuid))
  | rows, [] => .ok rows
  | rows, n :: ns =>
    if rows.contains (id, n) then .error (alreadyExists constraint)
    else if owner && hasNetwork n then grantAccess table constraint owner hasNetwork id (rows ++ [(id, n)]) ns
    else .error (danglingReference table)

/-- Replace the networks of an owner, in one transaction. -/
def replaceAccess (table constraint : String) (owner : Bool) (hasNetwork : Uuid → Bool) (id : Uuid)
    (rows : List (Uuid × Uuid)) (networkIds : List Uuid) : Except ApiError (List (Uuid × Uuid)) :=
  grantAccess table constraint owner hasNetwork id (rows.filter fun r => r.1 != id) networkIds

end Statements

/-- What a statement gives, in the state it is run in. -/
def runStatement {σ α : Type} (result : Except ApiError α) : EStateM ApiError σ α :=
  match result with
  | .ok a => return a
  | .error e => throw e

/-- `Uuid::new_v4`. -/
def AccountStore.newV4 : AccountStore Uuid := do
  let accounts ← get
  set { accounts with drawn := accounts.drawn.tail }
  return accounts.drawn.headD Uuid.nil

/-! ## Extractors -/

section Extractors

variable {σ : Type}

/-- `Authorized`. -/
def authorize (p : PermissionRequirement) (entity : AuthenticatedEntity) : EStateM ApiError σ Unit :=
  match p.authorized entity with
  | some e => throw e
  | none => return ()

/-- `RequireFeature`; an organization without a plan has the default one. -/
def requireFeature (feature : BillingPlanFeatures → Bool) (message : String)
    (organizations : Table Organization Organization.id) (entity : AuthenticatedEntity) :
    EStateM ApiError σ Unit := do
  authorize .viewer entity
  match entity.organizationId with
  | none => throw (.internalError "No organization")
  | some organizationId =>
    match organizations.get organizationId with
    | none => throw (.forbidden "Organization not found")
    | some organization =>
      if feature (organization.plan.getD .community).features then return () else throw (.paymentRequired message)

end Extractors

namespace OrganizationService

def create (name : String) (plan : Option BillingPlan) : AccountStore Organization := do
  let organization : Organization := { id := ← AccountStore.newV4, name, plan }
  let accounts ← get
  let organizations ← runStatement (insertInto "organizations" accounts.organizations [] true organization)
  set { accounts with organizations }
  return organization

end OrganizationService

namespace UserService

variable [EmailRules]

/-- The unique indexes of `users`: one user for an address, whatever its case, and
one for a subject of a provider. -/
def uniques : List (String × (User → User → Bool)) :=
  [("idx_users_email_lower", fun u other => EmailRules.lower u.base.email == EmailRules.lower other.base.email),
    ("idx_users_oidc_provider_subject", fun u other =>
      u.base.oidcProvider.isSome && u.base.oidcSubject.isSome
        && u.base.oidcProvider == other.base.oidcProvider && u.base.oidcSubject == other.base.oidcSubject)]

def references (accounts : Accounts) (user : User) : Bool :=
  (accounts.organizations.get user.base.organizationId).isSome

def readRow : Option User → AccountStore (Option User)
  | none => return none
  | some user => some <$> runStatement user.fromRow

/-- The user with the id. -/
def getById (id : Uuid) : AccountStore (Option User) := do
  readRow ((← get).users.get id)

/-- Some user that passes `p`; the order of the rows is the database's. -/
def getOne (p : User → Bool) : AccountStore (Option User) := do
  readRow ((← get).users.rows.find? p)

/-- The users that pass `p`, oldest first. -/
def getAll (p : User → Bool) : AccountStore (List User) := do
  ((← get).users.select p User.createdAt).mapM fun user => runStatement user.fromRow

/-- The filter has the subject, and of the provider only that there is one. -/
def hasOidcSubject (subject : String) (user : User) : Bool :=
  user.base.oidcSubject == some subject && user.base.oidcProvider.isSome

def getUserByOidc (subject : String) : AccountStore (Option User) := getOne (hasOidcSubject subject)

/-- The networks a user was given. -/
def getNetworkIds (id : Uuid) : AccountStore (List Uuid) := do
  return ((← get).userNetworkAccess.filter fun r => r.1 == id).map (·.2)

def setNetworkIds (id : Uuid) (networkIds : List Uuid) : AccountStore Unit := do
  let accounts ← get
  let userNetworkAccess ← runStatement
    (replaceAccess "user_network_access" "user_network_access_user_id_network_id_key"
      (accounts.users.get id).isSome (fun n => (accounts.networks.get n).isSome) id accounts.userNetworkAccess
      networkIds)
  set { accounts with userNetworkAccess }

def store (user : User) : AccountStore User := do
  let accounts ← get
  let users ← runStatement
    (updateIn "users" accounts.users uniques (references accounts user) user.row)
  set { accounts with users }
  return user

/-- `CrudService::update`. -/
def update (user : User) : AccountStore User := do
  match ← getById user.id with
  | none => throw (.internalError ("Could not find " ++ toString user))
  | some _ => store user

def create (base : UserBase) : AccountStore User := do
  let user : User := { id := ← AccountStore.newV4, createdAt := (← get).now, updatedAt := (← get).now, base }
  match ← getOne fun u => u.base.email == user.base.email with
  | some _ => throw (.internalError ("User with email " ++ user.base.email ++ " already exists"))
  | none =>
    let accounts ← get
    let users ← runStatement
      (insertInto "users" accounts.users uniques (references accounts user) user.row)
    set { accounts with users }
    if !user.base.networkIds.isEmpty then setNetworkIds user.id user.base.networkIds
    return user

end UserService

end Netvisor
