import TrafficPlatform.Gateway

/-!
# API key management

`app/services/api_key.py` and `app/services/audit.py`, with the routes of `app/api/api_keys.py` that
create, rotate or revoke a key.
-/

namespace TrafficPlatform
open Kit

/-- A program of the organization service that only reads, as a program of the platform. -/
def ofOrg {α : Type} : Org α → Platform α
  | .ret a => .ret a
  | .raise e => .raise e
  | .stmt f k =>
    .stmt (fun _ db => (f (fun _ => false) db.orgs).map fun r => (r.1, [])) fun b => ofOrg (k b)
  | .io f k =>
    .io (fun env w =>
      let r := f ⟨env.time, env.text, env.number, ()⟩ { w with outside := () }
      (r.1, { r.2 with outside := w.outside })) fun x => ofOrg (k x)
  | .assign _ p => ofOrg p
  | .flush p => ofOrg p

def apiKeyPrefix : String := "atp"

structure GeneratedApiKey where
  fullKey : String
  keyPrefix : String
  lastFour : String
  keyHash : String
deriving DecidableEq, Repr

def generateApiKey (cfg : Config) : Platform GeneratedApiKey := do
  let publicId ← random
  let secret ← random
  let keyPrefix := apiKeyPrefix ++ "_" ++ publicId
  let fullKey := keyPrefix ++ "_" ++ secret
  return {
    fullKey := fullKey
    keyPrefix := keyPrefix
    lastFour := String.ofList (secret.toList.drop (secret.length - 4))
    keyHash := cfg.hashToken fullKey }

namespace ApiKeys

def ApiRepository.getInOrg (apiId organizationId : Uuid) : Platform (Option Api) :=
  .query fun db => db.apis.one fun a => a.id == apiId && a.organizationId == organizationId

def ApiCatalogService.getApi (organizationId apiId : Uuid) : Platform Api := do
  let api ← ApiRepository.getInOrg apiId organizationId
  match api with
  | none => .raise (ErrorClass.notFoundError.error "API not found in this organization.")
  | some api => return api

def ApiKeyRepository.getInApi (keyId apiId : Uuid) : Platform (Option ApiKey) :=
  .query fun db => db.apiKeys.one fun k => k.id == keyId && k.apiId == apiId

def ApiKeyRepository.add (k : ApiKey) : Platform Unit := do
  .set (.addApiKey k)
  .flushSession

namespace ApiKeyService

/-- The new key, and its full value, which is shown once. -/
def createKey (cfg : Config) (organizationId apiId : Uuid) (name : String) (expiresInDays : Option Nat)
    (createdByUserId : Option Uuid) : Platform (ApiKey × String) := do
  let _ ← ApiCatalogService.getApi organizationId apiId
  let generated ← generateApiKey cfg
  let expiresAt ← match expiresInDays with
    | some days => do
      let time ← now
      pure (some (time + days * dayLength))
    | none => pure none
  let id ← uuid4
  let record : ApiKey := {
    id := id
    apiId := apiId
    organizationId := organizationId
    name := name
    keyPrefix := generated.keyPrefix
    lastFour := generated.lastFour
    keyHash := generated.keyHash
    createdByUserId := createdByUserId
    expiresAt := expiresAt
    revokedAt := none
    rotatedTo := none }
  ApiKeyRepository.add record
  return (record, generated.fullKey)

def getKey (organizationId apiId keyId : Uuid) : Platform ApiKey := do
  let _ ← ApiCatalogService.getApi organizationId apiId
  let key ← ApiKeyRepository.getInApi keyId apiId
  match key with
  | none => .raise (ErrorClass.notFoundError.error "API key not found for this API.")
  | some key => return key

def revokeKey (organizationId apiId keyId : Uuid) : Platform Unit := do
  let key ← getKey organizationId apiId keyId
  if key.revokedAt.isNone then do
    let time ← now
    .set (.changeApiKey key.id { revokedAt := some time })
  .flushSession

/-- What a rotation changes in the old key: it is revoked at once, or expires after the grace period
unless it expires before. -/
def grace (old : ApiKey) (gracePeriodHours : Nat) (newId : Uuid) (time : Time) : ApiKeyChange :=
  let graceExpiry := time + gracePeriodHours * 3600 * second
  if gracePeriodHours = 0 then { revokedAt := some time, rotatedTo := some newId }
  else if old.expiresAt.all fun t => decide (t > graceExpiry) then
    { expiresAt := some graceExpiry, rotatedTo := some newId }
  else { rotatedTo := some newId }

def rotateKey (cfg : Config) (organizationId apiId keyId : Uuid) (gracePeriodHours : Nat)
    (createdByUserId : Option Uuid) : Platform (ApiKey × String) := do
  let old ← getKey organizationId apiId keyId
  if old.revokedAt.isSome then
    .raise (ErrorClass.validationAppError.error "Cannot rotate a revoked key.")
  else
    let issued ← createKey cfg organizationId apiId old.name none createdByUserId
    let time ← now
    .set (.changeApiKey old.id (grace old gracePeriodHours issued.1.id time))
    .flushSession
    return issued

end ApiKeyService

/-! ### The audit log -/

/-- `AuditLogService.record` in a transaction that began at `createdAt`. -/
def AuditLogService.record (createdAt : Time) (action resourceType : String)
    (organizationId actorUserId resourceId : Option Uuid) (ip : Option String)
    (metadata : List (String × Uuid)) : Platform Unit := do
  let id ← uuid4
  .set (.addAuditLog { id, createdAt, organizationId, actorUserId, action, resourceType, resourceId, ip, metadata })
  let time ← now
  let eventId ← uuid4
  Gateway.OutboxEmitter.emit createdAt (.auditLog {
    schemaVersion := schemaVersion
    eventId := eventId
    occurredAt := time
    organizationId := organizationId
    actorUserId := actorUserId
    action := action
    resourceType := resourceType
    resourceId := resourceId
    ip := ip
    metadata := metadata })

end ApiKeys

/-! ### The routes -/

/-- A call of `/organizations/{org_id}/apis/{api_id}/keys…` by the user `caller` from `ip`, as its
schema lets it pass: a name of at most 200 characters, 1 to 3650 days, 0 to 720 hours. -/
inductive ApiKeyRequest
  | createKey (caller orgId apiId : Uuid) (ip name : String) (expiresInDays : Option Nat)
  | rotateKey (caller orgId apiId keyId : Uuid) (ip : String) (gracePeriodHours : Nat)
  | revokeKey (caller orgId apiId keyId : Uuid) (ip : String)
deriving DecidableEq, Repr

/-- The key with its full value, or an empty answer. -/
inductive ApiKeyAnswer
  | created (key : ApiKey) (fullKey : String)
  | noContent
deriving DecidableEq, Repr

namespace ApiKeyRequest
open ApiKeys

/-- The handlers; the first statement begins the transaction. -/
def prog (cfg : Config) : ApiKeyRequest → Platform ApiKeyAnswer
  | createKey caller orgId apiId ip name expiresInDays => do
    let createdAt ← now
    let _ ← ofOrg (OrgRequest.authorize .keyCreate caller orgId)
    let issued ← ApiKeyService.createKey cfg orgId apiId name expiresInDays (some caller)
    AuditLogService.record createdAt "api_key.create" "api_key" (some orgId) (some caller)
      (some issued.1.id) (some ip)
      [("api_id", apiId)]
    return .created issued.1 issued.2
  | rotateKey caller orgId apiId keyId ip gracePeriodHours => do
    let createdAt ← now
    let _ ← ofOrg (OrgRequest.authorize .keyRotate caller orgId)
    let issued ← ApiKeyService.rotateKey cfg orgId apiId keyId gracePeriodHours (some caller)
    AuditLogService.record createdAt "api_key.rotate" "api_key" (some orgId) (some caller)
      (some keyId) (some ip)
      [("new_key_id", issued.1.id)]
    return .created issued.1 issued.2
  | revokeKey caller orgId apiId keyId ip => do
    let createdAt ← now
    let _ ← ofOrg (OrgRequest.authorize .keyRevoke caller orgId)
    ApiKeyService.revokeKey orgId apiId keyId
    AuditLogService.record createdAt "api_key.revoke" "api_key" (some orgId) (some caller)
      (some keyId) (some ip) []
    return .noContent

end ApiKeyRequest

end TrafficPlatform
