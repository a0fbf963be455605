/-
The endpoints for the API keys of users, and the entity such a key stands for.
-/
import Netvisor.Auth.ApiKeys
import Netvisor.Users.Handlers

namespace Netvisor

namespace Accounts

/-- The networks a key was given. -/
def keyNetworks (accounts : Accounts) (apiKeyId : Uuid) : List Uuid :=
  (accounts.userApiKeyNetworkAccess.filter fun r => r.1 == apiKeyId).map (·.2)

end Accounts

namespace UserApiKeyService

/-- The columns of a key. -/
def row (apiKey : UserApiKey) : UserApiKey := { apiKey with base.networkIds := [] }

def uniques : List (String × (UserApiKey → UserApiKey → Bool)) :=
  [("user_api_keys_key_key", fun k other => k.base.key == other.base.key)]

def references (accounts : Accounts) (apiKey : UserApiKey) : Bool :=
  (accounts.users.get apiKey.base.userId).isSome && (accounts.organizations.get apiKey.base.organizationId).isSome

/-- `CrudService::update`. -/
def update (apiKey : UserApiKey) : AccountStore UserApiKey := do
  let accounts ← get
  match accounts.userApiKeys.get apiKey.id with
  | none => throw (.internalError ("Could not find " ++ apiKey.base.name ++ ": " ++ toString apiKey.id))
  | some _ =>
    let userApiKeys ← runStatement
      (updateIn "user_api_keys" accounts.userApiKeys uniques (references accounts apiKey) (row apiKey))
    set { accounts with userApiKeys }
    return apiKey

/-- Replace the networks of a key. -/
def updateNetworkAccess (apiKeyId : Uuid) (networkIds : List Uuid) : AccountStore Unit := do
  let accounts ← get
  let userApiKeyNetworkAccess ← runStatement
    (replaceAccess "user_api_key_network_access" "user_api_key_network_access_api_key_id_network_id_key"
      (accounts.userApiKeys.get apiKeyId).isSome (fun n => (accounts.networks.get n).isSome) apiKeyId
      accounts.userApiKeyNetworkAccess networkIds)
  set { accounts with userApiKeyNetworkAccess }

/-- A nil id stands for a new one. -/
def orNew (apiKey : UserApiKey) : AccountStore UserApiKey := do
  if apiKey.id == Uuid.nil then
    let id ← AccountStore.newV4
    let now := (← get).now
    return { apiKey with id, createdAt := now, updatedAt := now }
  else return apiKey

def createWithNetworks (apiKey : UserApiKey) (networkIds : List Uuid) : AccountStore UserApiKey := do
  let apiKey ← orNew apiKey
  let accounts ← get
  let userApiKeys ← runStatement
    (insertInto "user_api_keys" accounts.userApiKeys uniques (references accounts apiKey) (row apiKey))
  set { accounts with userApiKeys }
  if !networkIds.isEmpty then updateNetworkAccess apiKey.id networkIds
  return { apiKey with base.networkIds := networkIds }

end UserApiKeyService

namespace UserApiKeyHandlers

open UserApiKeyService

/-- `extract_auth` of a key: what it acts as, and the row that a detached task writes back. -/
def authenticate (hash : String → String) (request : KeyRequest) (accounts : Accounts) :
    Except ApiError AuthenticatedEntity × Option UserApiKey :=
  let found := accounts.userApiKeys.rows.find? fun k => k.base.key == hash request.key
  let apiAccess := (found.bind fun k => (accounts.organizations.get k.base.organizationId).bind (·.plan)).any
    (·.features.apiAccess)
  let (result, written) := extractAuth { request with apiAccess } found
  (result.map fun k =>
    .apiKey k.id k.base.userId k.base.organizationId k.base.permissions (accounts.keyNetworks k.id), written)

/-- `RequireFeature<ApiKeyFeature>`. -/
def requireApiKeyFeature (entity : AuthenticatedEntity) : AccountStore Unit := do
  requireFeature (·.apiAccess) "Your plan does not include api access" (← get).organizations entity

/-- The rights a key is asked for are among those of the user. -/
def validateRights (entity : AuthenticatedEntity) (request : UserApiKey) : AccountStore Unit :=
  if ApiKeyCommon.validateUpdate request entity then return () else throw .permissionDenied

/-- Create a key, which has the given hash. -/
def createUserApiKey (entity : AuthenticatedEntity) (apiKey : UserApiKey) (hashed : String) :
    AccountStore UserApiKey := do
  authorize .isUser entity
  requireApiKeyFeature entity
  match entity.userId, entity.organizationId with
  | some userId, some organizationId =>
    validateRights entity apiKey
    internally (createWithNetworks
      { apiKey with base.userId := userId, base.organizationId := organizationId, base.key := hashed }
      apiKey.base.networkIds)
  | _, _ => throw (.internalError "User ID required")

def updateUserApiKey (entity : AuthenticatedEntity) (id : Uuid) (request : UserApiKey) : AccountStore UserApiKey := do
  authorize .isUser entity
  requireApiKeyFeature entity
  match (← get).userApiKeys.get id with
  | none => throw (.entityNotFound "User API Key" id)
  | some existing =>
    if !ApiKeyCommon.validateAccess existing entity then throw (.entityAccessDenied "User API Key" id)
    else
      validateRights entity request
      let request := UserApiKey.preserveImmutableFields existing request
      updateNetworkAccess id request.base.networkIds
      internally (update request)

end UserApiKeyHandlers

end Netvisor
