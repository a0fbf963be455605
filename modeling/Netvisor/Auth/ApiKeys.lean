/-
API keys: what the keys of users and of daemons have in common, when a key lets
a request in, and what is written of the key on the way.
-/
import Netvisor.Auth.Accounts

namespace Netvisor

inductive ApiKeyType
  | daemon
  | user
deriving DecidableEq, Repr

/-- Keys without a prefix are those of daemons, from before there were others. -/
def ApiKeyType.fromKey (key : String) : ApiKeyType :=
  if "scp_u_".toList.isPrefixOf key.toList then .user else .daemon

structure DaemonApiKeyBase where
  /-- The hash of the key. -/
  key : String := ""
  name : String := ""
  lastUsed : Option DateTime := none
  expiresAt : Option DateTime := none
  networkId : Uuid := Uuid.nil
  isEnabled : Bool := false
  plaintext : Option String := none
deriving DecidableEq, Repr

structure DaemonApiKey where
  id : Uuid := Uuid.nil
  createdAt : DateTime := 0
  updatedAt : DateTime := 0
  base : DaemonApiKeyBase := {}
deriving DecidableEq, Repr

/-- A kind of key. The laws say which of its fields an operation touches. -/
class ApiKeyCommon (K : Type) where
  keyType : ApiKeyType
  entityName : String
  keyId : K → Uuid
  key : K → String
  isEnabled : K → Bool
  expiresAt : K → Option DateTime
  setKey : String → K → K
  setIsEnabled : Bool → K → K
  setLastUsed : Option DateTime → K → K
  /-- A request to update, with the fields an update does not change as they are stored. -/
  preserveImmutableFields : (existing request : K) → K
  /-- Who may update or rotate the key. -/
  validateAccess : K → AuthenticatedEntity → Bool
  /-- What else an update has to meet. -/
  validateUpdate : K → AuthenticatedEntity → Bool
  keyId_setKey : ∀ h k, keyId (setKey h k) = keyId k
  keyId_setIsEnabled : ∀ b k, keyId (setIsEnabled b k) = keyId k
  keyId_setLastUsed : ∀ d k, keyId (setLastUsed d k) = keyId k
  keyId_preserve : ∀ e r, keyId (preserveImmutableFields e r) = keyId e
  key_setKey : ∀ h k, key (setKey h k) = h
  key_setIsEnabled : ∀ b k, key (setIsEnabled b k) = key k
  key_setLastUsed : ∀ d k, key (setLastUsed d k) = key k
  key_preserve : ∀ e r, key (preserveImmutableFields e r) = key e
  isEnabled_setKey : ∀ h k, isEnabled (setKey h k) = isEnabled k
  isEnabled_setIsEnabled : ∀ b k, isEnabled (setIsEnabled b k) = b
  isEnabled_setLastUsed : ∀ d k, isEnabled (setLastUsed d k) = isEnabled k
  isEnabled_preserve : ∀ e r, isEnabled (preserveImmutableFields e r) = isEnabled r

namespace ApiKeyCommon

attribute [simp] keyId_setKey keyId_setIsEnabled keyId_setLastUsed keyId_preserve key_setKey key_setIsEnabled key_setLastUsed
  key_preserve isEnabled_setKey isEnabled_setIsEnabled isEnabled_setLastUsed isEnabled_preserve

end ApiKeyCommon

namespace UserApiKey

def preserveImmutableFields (existing request : UserApiKey) : UserApiKey :=
  { request with
    id := existing.id
    createdAt := existing.createdAt
    base.key := existing.base.key
    base.lastUsed := existing.base.lastUsed
    base.userId := existing.base.userId
    base.organizationId := existing.base.organizationId }

/-- `UserApiKeyService::validate_permissions`. -/
def validatePermissions (keyPermissions userPermissions : UserOrgPermissions) : Bool :=
  keyPermissions ≤ userPermissions

/-- `UserApiKeyService::validate_network_access`. -/
def validateNetworkAccess (keyNetworkIds userNetworkIds : List Uuid) : Bool :=
  keyNetworkIds.all userNetworkIds.contains

end UserApiKey

instance : ApiKeyCommon UserApiKey where
  keyType := .user
  entityName := "User API Key"
  keyId := UserApiKey.id
  key k := k.base.key
  isEnabled k := k.base.isEnabled
  expiresAt k := k.base.expiresAt
  setKey key k := { k with base.key := key }
  setIsEnabled isEnabled k := { k with base.isEnabled := isEnabled }
  setLastUsed lastUsed k := { k with base.lastUsed := lastUsed }
  preserveImmutableFields := UserApiKey.preserveImmutableFields
  validateAccess k entity := entity.userId == some k.base.userId
  validateUpdate request entity :=
    entity.permissions.any (UserApiKey.validatePermissions request.base.permissions)
      && UserApiKey.validateNetworkAccess request.base.networkIds entity.networkIds
  keyId_setKey _ _ := rfl
  keyId_setIsEnabled _ _ := rfl
  keyId_setLastUsed _ _ := rfl
  keyId_preserve _ _ := rfl
  key_setKey _ _ := rfl
  key_setIsEnabled _ _ := rfl
  key_setLastUsed _ _ := rfl
  key_preserve _ _ := rfl
  isEnabled_setKey _ _ := rfl
  isEnabled_setIsEnabled _ _ := rfl
  isEnabled_setLastUsed _ _ := rfl
  isEnabled_preserve _ _ := rfl

/-- The handler of updates also keeps the id and the time of creation. -/
def DaemonApiKey.preserveImmutableFields (existing request : DaemonApiKey) : DaemonApiKey :=
  { request with
    id := existing.id
    createdAt := existing.createdAt
    base.key := existing.base.key
    base.lastUsed := existing.base.lastUsed }

instance : ApiKeyCommon DaemonApiKey where
  keyType := .daemon
  entityName := "Daemon API Key"
  keyId := DaemonApiKey.id
  key k := k.base.key
  isEnabled k := k.base.isEnabled
  expiresAt k := k.base.expiresAt
  setKey key k := { k with base.key := key }
  setIsEnabled isEnabled k := { k with base.isEnabled := isEnabled }
  setLastUsed lastUsed k := { k with base.lastUsed := lastUsed }
  preserveImmutableFields := DaemonApiKey.preserveImmutableFields
  validateAccess k entity := entity.networkIds.contains k.base.networkId
  validateUpdate request entity := entity.networkIds.contains request.base.networkId
  keyId_setKey _ _ := rfl
  keyId_setIsEnabled _ _ := rfl
  keyId_setLastUsed _ _ := rfl
  keyId_preserve _ _ := rfl
  key_setKey _ _ := rfl
  key_setIsEnabled _ _ := rfl
  key_setLastUsed _ _ := rfl
  key_preserve _ _ := rfl
  isEnabled_setKey _ _ := rfl
  isEnabled_setIsEnabled _ _ := rfl
  isEnabled_setLastUsed _ _ := rfl
  isEnabled_preserve _ _ := rfl

/-! ## Authentication -/

variable {K : Type} [ApiKeyCommon K]

open ApiKeyCommon

def isExpired (now : DateTime) (k : K) : Bool := (expiresAt k).any fun exp => now > exp

def checkKeyValidity (now : DateTime) (k : K) : Option ApiError :=
  if isExpired now k then some (.entityExpired (entityName K))
  else if !isEnabled k then some (.entityDisabled (entityName K))
  else none

/-- A request that presents a key, and what the other tables say while it is authenticated. -/
structure KeyRequest where
  key : String
  now : DateTime := 0
  /-- The plan of the organization has API access. -/
  apiAccess : Bool := true
  /-- Whether the `X-Daemon-ID` of the request, if it has one, names a registered daemon. -/
  daemon : Option Bool := some true

/-- `extract_auth`, from the row that was found: the key the request acts with, and the row that a
detached task writes back. -/
def extractAuth (request : KeyRequest) (found : Option K) : Except ApiError K × Option K :=
  if keyType K == .daemon && request.daemon.isNone then (.error .daemonRequired, none)
  else
    match found with
    | some k =>
      match checkKeyValidity request.now k with
      | some e => (.error e, if isExpired request.now k then some (setIsEnabled false k) else none)
      | none =>
        if keyType K == .user && !request.apiAccess then
          (.error (.paymentRequired "Your plan does not include api access"), none)
        else (.ok k, some (setLastUsed (some request.now) k))
    | none =>
      if keyType K == .daemon && request.daemon == some false then (.error .daemonKeyNotYetActive, none)
      else (.error .notAuthenticated, none)

/-- A request is let in by an enabled key. -/
theorem enabled_of_extractAuth {request : KeyRequest} {found : Option K} {k : K}
    (h : (extractAuth request found).1 = .ok k) : found = some k ∧ isEnabled k = true := by
  unfold extractAuth at h
  split at h
  · cases h
  split at h
  · next row =>
    split at h
    · cases h
    · next hvalid =>
      split at h
      · cases h
      · cases h
        refine ⟨rfl, ?_⟩
        unfold checkKeyValidity at hvalid
        split at hvalid
        · cases hvalid
        · split at hvalid
          · cases hvalid
          · next henabled => simpa using henabled
  · split at h
    · cases h
    · cases h

/-- What is written back is the key that was found, disabled or used. -/
theorem written_cases {request : KeyRequest} {found : Option K} {w : K} (h : (extractAuth request found).2 = some w) :
    ∃ k, found = some k ∧ (w = setIsEnabled false k ∨ w = setLastUsed (some request.now) k) := by
  unfold extractAuth at h
  split at h
  · cases h
  split at h
  · next row =>
    refine ⟨row, rfl, ?_⟩
    split at h
    · split at h
      · exact .inl (Option.some.inj h).symm
      · cases h
    · split at h
      · cases h
      · exact .inr (Option.some.inj h).symm
  · split at h
    · cases h
    · cases h

/-- It has no more rights than it had. -/
theorem written_of_extractAuth {request : KeyRequest} {found : Option K} {w : K}
    (h : (extractAuth request found).2 = some w) :
    ∃ k, found = some k ∧ keyId w = keyId k ∧ key w = key k ∧ (isEnabled w = true → isEnabled k = true) := by
  obtain ⟨k, hk, rfl | rfl⟩ := written_cases h
  · exact ⟨k, hk, by simp⟩
  · exact ⟨k, hk, by simp⟩

end Netvisor
