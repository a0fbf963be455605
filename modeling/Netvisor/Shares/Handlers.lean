/-
Shares, which publish a topology to whoever has the link: the endpoints that
create and update one, and the public one that answers with the topology.

How passwords are hashed and checked, and the host of a URL, are left to
`ShareService`.
-/
import Netvisor.Auth.Accounts
import Netvisor.Topology.Types

namespace Netvisor

class ShareService where
  /-- `hash_password`, with the salt that was drawn. -/
  hashPassword : (salt password : String) → Except String String
  /-- Whether `verify_password` accepts. -/
  verifyPassword : (password hash : String) → Bool
  /-- The host of a URL that parses and has one. -/
  hostOf : String → Option String

/-! ## Shares -/

structure ShareOptions where
  showInspectPanel : Bool := true
  showZoomControls : Bool := true
  showExportButton : Bool := true
deriving DecidableEq, Repr

structure ShareBase where
  topologyId : Uuid := Uuid.nil
  networkId : Uuid := Uuid.nil
  createdBy : Uuid := Uuid.nil
  name : String := ""
  isEnabled : Bool := false
  expiresAt : Option DateTime := none
  passwordHash : Option String := none
  allowedDomains : Option (List String) := none
  options : ShareOptions := {}
deriving DecidableEq, Repr

structure Share where
  id : Uuid := Uuid.nil
  createdAt : DateTime := 0
  updatedAt : DateTime := 0
  base : ShareBase := {}
deriving DecidableEq, Repr

namespace Share

instance : ToString Share where
  toString share := "Share " ++ toString share.id ++ " (" ++ share.base.name ++ ")"

/-- A share as deserialized from a request, without the hash, which is skipped. -/
def deserialize (share : Share) : Share := { share with base.passwordHash := none }

/-- Enabled and not expired. -/
def isValid (share : Share) (now : DateTime) : Bool :=
  if !share.base.isEnabled then false else !share.base.expiresAt.any fun expiresAt => now > expiresAt

def requiresPassword (share : Share) : Bool := share.base.passwordHash.isSome

def hasDomainRestrictions (share : Share) : Bool := share.base.allowedDomains.any fun d => !d.isEmpty

end Share

structure PublicShareMetadata where
  id : Uuid
  name : String
  requiresPassword : Bool
  options : ShareOptions
deriving DecidableEq, Repr

def PublicShareMetadata.from (share : Share) : PublicShareMetadata where
  id := share.id
  name := share.base.name
  requiresPassword := share.requiresPassword
  options := share.base.options

structure ShareDb where
  accounts : Accounts := {}
  topologies : Table Topology Topology.id := {}
  shares : Table Share Share.id := {}

abbrev ShareStore := EStateM ApiError ShareDb

namespace ShareService

def references (s : ShareDb) (share : Share) : Bool :=
  (s.topologies.get share.base.topologyId).isSome && (s.accounts.networks.get share.base.networkId).isSome
    && (s.accounts.users.get share.base.createdBy).isSome

/-- A nil id stands for a new one. -/
def orNew (share : Share) : ShareStore Share := do
  if share.id == Uuid.nil then
    let s ← get
    set { s with accounts.drawn := s.accounts.drawn.tail }
    return { share with id := s.accounts.drawn.headD Uuid.nil, createdAt := s.accounts.now, updatedAt :=
      s.accounts.now }
  else return share

/-- `CrudService::create`. -/
def create (share : Share) : ShareStore Share := do
  let share ← orNew share
  let s ← get
  let shares ← runStatement (insertInto "shares" s.shares [] (references s share) share)
  set { s with shares }
  return share

/-- `CrudService::update`. -/
def update (share : Share) : ShareStore Share := do
  let s ← get
  match s.shares.get share.id with
  | none => throw (.internalError ("Could not find " ++ toString share))
  | some _ =>
    let shares ← runStatement (updateIn "shares" s.shares [] (references s share) share)
    set { s with shares }
    return share

variable [ShareService]

def verifySharePassword (share : Share) (password : String) : Bool :=
  share.base.passwordHash.any (verifyPassword password)

/-- Where a share may be embedded; a leading `*.` stands for the domain and those under it. -/
def validateAllowedDomains (share : Share) (referer : Option String) : Bool :=
  match share.base.allowedDomains with
  | none => true
  | some allowed =>
    if allowed.isEmpty then true
    else
      match referer.bind hostOf with
      | none => false
      | some host => allowed.any fun domain =>
        if "*.".toList.isPrefixOf domain.toList then
          (domain.toList.drop 1).isSuffixOf host.toList || host.toList == domain.toList.drop 2
        else host == domain

end ShareService

/-! ## Handlers -/

namespace ShareHandlers

variable [ShareService]

def hash (salt password : String) : ShareStore String :=
  match ShareService.hashPassword salt password with
  | .ok passwordHash => return passwordHash
  | .error e => throw (.internalError e)

/-- `validate_network_access`. -/
def validateNetworkAccess (entity : AuthenticatedEntity) (networkId : Uuid) : ShareStore Unit :=
  if entity.networkIds.contains networkId then return () else throw (.entityAccessDenied "Network" networkId)

def createHandler (entity : AuthenticatedEntity) (share : Share) : ShareStore Share := do
  match entity.organizationId with
  | none => throw .organizationRequired
  | some _ =>
    validateNetworkAccess entity share.base.networkId
    ShareService.create share

/-- The id and the time of creation stay those that are stored. -/
def updateHandler (entity : AuthenticatedEntity) (id : Uuid) (share : Share) : ShareStore Share := do
  match entity.organizationId with
  | none => throw .organizationRequired
  | some _ =>
    match (← get).shares.get id with
    | none => throw (.entityNotFound "Share" id)
    | some existing =>
      let share := { share with id := existing.id, createdAt := existing.createdAt }
      validateNetworkAccess entity existing.base.networkId
      validateNetworkAccess entity share.base.networkId
      ShareService.update share

/-- Create a share, with the password if one is given that is not empty. -/
def createShare (entity : AuthenticatedEntity) (share : Share) (password : Option String) (salt : String) :
    ShareStore Share := do
  requireFeature (·.shareViews) "Your plan does not include sharing. Upgrade to share live network diagrams."
    (← get).accounts.organizations entity
  authorize .member entity
  let share := share.deserialize
  let passwordHash ← match password with
    | some password => if password.isEmpty then pure share.base.passwordHash else some <$> hash salt password
    | none => pure share.base.passwordHash
  match entity.userId with
  | none => throw .userRequired
  | some userId => createHandler entity { share with base.passwordHash := passwordHash, base.createdBy := userId }

/-- Update a share: no password keeps the one it has, the empty one removes it. -/
def updateShare (entity : AuthenticatedEntity) (id : Uuid) (share : Share) (password : Option String)
    (salt : String) :
    ShareStore Share := do
  authorize .member entity
  match (← get).shares.get id with
  | none => throw (.entityNotFound "Share" id)
  | some existing =>
    let passwordHash ← match password with
      | none => pure existing.base.passwordHash
      | some password => if password.isEmpty then pure none else some <$> hash salt password
    updateHandler entity id { share.deserialize with base.passwordHash := passwordHash }

/-! ## Public routes -/

structure ShareRequest where
  embed : Bool := false
  referer : Option String := none
  password : Option String := none
  now : DateTime := 0
deriving DecidableEq, Repr

structure ShareWithTopology where
  share : PublicShareMetadata
  topology : Topology
  /-- The header that says who may frame the page. -/
  frameAncestors : String
deriving DecidableEq, Repr

/-- The plan of the organization of a share's network, the default one if it has none. -/
def getShareOrgPlan (s : ShareDb) (share : Share) : Except ApiError BillingPlan :=
  match s.accounts.networks.get share.base.networkId with
  | none => .error (.entityNotFound "Network" share.base.networkId)
  | some network =>
    match s.accounts.organizations.get network.organizationId with
    | none => .error (.entityNotFound "Organization" network.organizationId)
    | some organization => .ok (organization.plan.getD .community)

def checkPassword (share : Share) (password : Option String) : Except ApiError Unit :=
  if share.requiresPassword then
    match password with
    | some password =>
      if ShareService.verifySharePassword share password then .ok () else .error .sharePasswordIncorrect
    | none => .error .sharePasswordRequired
  else .ok ()

def checkDomain (share : Share) (request : ShareRequest) : Except ApiError Unit :=
  if request.embed && share.hasDomainRestrictions && !ShareService.validateAllowedDomains share request.referer then
    .error (.coded 403 (.shareDomainNotAllowed (request.referer.getD "unknown")))
  else .ok ()

/-- Who may frame the page. -/
def frameAncestors (share : Share) (hasEmbedsFeature : Bool) : String :=
  if hasEmbedsFeature then
    match share.base.allowedDomains with
    | some domains => if domains.isEmpty then "frame-ancestors *" else "frame-ancestors " ++ " ".intercalate domains
    | none => "frame-ancestors *"
  else "frame-ancestors 'none'"

def getShareTopology (id : Uuid) (request : ShareRequest) (s : ShareDb) : Except ApiError ShareWithTopology := do
  match s.shares.get id with
  | none => .error (.entityNotFound "Share" id)
  | some share =>
    if !share.isValid request.now then .error (.entityDisabled "Share")
    else
      let plan ← getShareOrgPlan s share
      let hasEmbedsFeature := plan.features.embeds
      if request.embed && !hasEmbedsFeature then
        .error (.paymentRequired "Embed access requires a plan with embeds feature")
      else
        checkPassword share request.password
        checkDomain share request
        match s.topologies.get share.base.topologyId with
        | none => .error (.entityNotFound "Topology" share.base.topologyId)
        | some topology =>
          .ok { share := .from share, topology, frameAncestors := frameAncestors share hasEmbedsFeature }

end ShareHandlers

end Netvisor
