import TrafficPlatform.ApiKeys
import TrafficPlatform.Kit.Embed

/-!
# Management: organizations, the API catalog and the keys

`app/services/api_catalog.py` with its repositories, the creation of an organization, and the routes
of `app/api/organizations.py`, `app/api/apis.py` and `app/api/api_keys.py`, over all tables: the
deletion of an organization or of an API cascades along the foreign keys. The requests run one after
another, so that a row write locks nothing.
-/

namespace TrafficPlatform
open Kit

/-! ### Slugs -/

def isSlugChar (c : Char) : Bool := decide ('a' ≤ c ∧ c ≤ 'z') || decide ('0' ≤ c ∧ c ≤ '9')

/-- `re.sub(r"[^a-z0-9]+", "-", …)`; `inRun` tells that the dash of the current run is written. -/
def dashed (inRun : Bool) : List Char → List Char
  | [] => []
  | c :: cs =>
    if isSlugChar c then c :: dashed false cs
    else if inRun then dashed true cs
    else '-' :: dashed true cs

/-- `.strip("-")`. -/
def stripDashes (cs : List Char) : List Char :=
  let isDash := fun c => c == '-'
  ((cs.dropWhile isDash).reverse.dropWhile isDash).reverse

def slugify (cfg : Config) (value : String) : String :=
  let slug := String.ofList (stripDashes (dashed false (cfg.lower value).toList))
  if slug = "" then "org" else slug

/-- The loop of `_unique_slug` from a suffix on; it ends within as many rounds as there are rows. -/
def uniqueSlugFrom (taken : String → Bool) (base : String) : Nat → Nat → String
  | 0, suffix => base ++ "-" ++ toString suffix
  | rounds + 1, suffix =>
    let slug := base ++ "-" ++ toString suffix
    if taken slug then uniqueSlugFrom taken base rounds (suffix + 1) else slug

def uniqueSlug (taken : String → Bool) (base : String) (rounds : Nat) : String :=
  if taken base then uniqueSlugFrom taken base rounds 2 else base

/-- `slug or name`. -/
def slugOr (slug : Option String) (name : String) : String := (slug.filter fun s => s != "").getD name

/-! ### Row writes -/

/-- The columns of an API that `update_api` is called with. -/
structure ApiChange where
  name : Option String
  description : Option String
  isActive : Option Bool
deriving DecidableEq, Repr

def Api.changed (a : Api) (c : ApiChange) : Api where
  __ := a
  name := c.name.getD a.name
  description := c.description.getD a.description
  isActive := c.isActive.getD a.isActive

namespace OrgDb

def addOrganization (db : OrgDb) (o : Organization) : OrgDb where
  __ := db
  organizations := db.organizations.insert o
  refers m hm := by
    obtain ⟨⟨o', ho, hid⟩, h⟩ := db.refers m hm
    exact ⟨⟨o', Table.mem_insert_of_mem ho, hid⟩, h⟩

end OrgDb

namespace PlatformDb

/-- The rows that the foreign keys delete with the APIs of `gone` and the keys of `lost`. -/
def cascade (db : PlatformDb) (gone : Api → Bool) (lost : ApiKey → Bool) : PlatformDb :=
  let goneId := fun id => db.apis.rows.any fun a => gone a && a.id == id
  let lostKey := fun k : ApiKey => lost k || goneId k.apiId
  { db with
    apis := db.apis.delete gone
    apiVersions := db.apiVersions.delete fun v => goneId v.apiId
    quotas := db.quotas.delete fun q => goneId q.apiId
    rateLimitRules := db.rateLimitRules.delete fun r => goneId r.apiId
    apiKeys := db.apiKeys.delete lostKey
    apiKeyUsage :=
      db.apiKeyUsage.delete fun u => db.apiKeys.rows.any fun k => lostKey k && k.id == u.apiKeyId
    keyRefers := fun k hk => by
      obtain ⟨hk, hkept⟩ := Table.mem_delete.1 hk
      obtain ⟨a, ha, hid⟩ := db.keyRefers k hk
      refine ⟨a, Table.mem_delete.2 ⟨ha, fun hgone => hkept ?_⟩, hid⟩
      rw [Bool.or_eq_true]
      exact .inr (List.any_eq_true.2 ⟨a, ha, by simp [hgone, hid]⟩)
    usageRefers := fun u hu => by
      obtain ⟨hu, hkept⟩ := Table.mem_delete.1 hu
      obtain ⟨k, hk, hid⟩ := db.usageRefers u hu
      refine ⟨k, Table.mem_delete.2 ⟨hk, fun hlost => hkept (List.any_eq_true.2 ⟨k, hk, ?_⟩)⟩, hid⟩
      simp only [hid, beq_self_eq_true, Bool.and_true]
      exact hlost }

def addOrganization (db : PlatformDb) (o : Organization) : PlatformDb :=
  { db with orgs := db.orgs.addOrganization o }

/-- `DELETE FROM organizations`. -/
def deleteOrganization (db : PlatformDb) (id : Uuid) : PlatformDb :=
  { db with orgs := db.orgs.deleteOrganization id }.cascade (fun a => a.organizationId == id)
    fun k => k.organizationId == id

def addApi (db : PlatformDb) (a : Api) : PlatformDb where
  __ := db
  apis := db.apis.insert a
  keyRefers k hk := by
    obtain ⟨a', ha, hid⟩ := db.keyRefers k hk
    exact ⟨a', Table.mem_insert_of_mem ha, hid⟩

def changeApi (db : PlatformDb) (id : Uuid) (c : ApiChange) : PlatformDb where
  __ := db
  apis := db.apis.update (fun a => a.id == id) (·.changed c) fun a b => by
    simp [Schema.clash, Api.changed]
  keyRefers k hk := by
    obtain ⟨a, ha, hid⟩ := db.keyRefers k hk
    exact ⟨_, Table.mem_update_of_mem ha, by split <;> exact hid⟩

/-- `DELETE FROM apis`. -/
def deleteApi (db : PlatformDb) (id : Uuid) : PlatformDb :=
  db.cascade (fun a => a.id == id) fun _ => false

def addApiVersion (db : PlatformDb) (v : ApiVersion) : PlatformDb :=
  { db with apiVersions := db.apiVersions.insert v }

def deleteApiVersion (db : PlatformDb) (id : Uuid) : PlatformDb :=
  { db with apiVersions := db.apiVersions.delete fun v => v.id == id }

def addQuota (db : PlatformDb) (q : Quota) : PlatformDb := { db with quotas := db.quotas.insert q }

def deleteQuota (db : PlatformDb) (id : Uuid) : PlatformDb :=
  { db with quotas := db.quotas.delete fun q => q.id == id }

def addRateLimitRule (db : PlatformDb) (r : RateLimitRule) : PlatformDb :=
  { db with rateLimitRules := db.rateLimitRules.insert r }

def setRateLimitRule (db : PlatformDb) (id : Uuid) (algorithm : RateLimitAlgorithm)
    (spec : RateLimitSpec) : PlatformDb :=
  { db with
    rateLimitRules := db.rateLimitRules.update (fun r => r.id == id)
      (fun r => { r with
          algorithm, requests := spec.requests, windowSeconds := spec.windowSeconds,
          burst := spec.burst })
      fun a b => by simp [Schema.clash] }

end PlatformDb

/-- A row write. -/
inductive ManagementOp
  | org (o : OrgOp)
  | platform (o : PlatformOp)
  | addOrganization (o : Organization)
  | addApi (a : Api)
  | changeApi (id : Uuid) (c : ApiChange)
  | deleteApi (id : Uuid)
  | addApiVersion (v : ApiVersion)
  | deleteApiVersion (id : Uuid)
  | addQuota (q : Quota)
  | deleteQuota (id : Uuid)
  | addRateLimitRule (r : RateLimitRule)
  | setRateLimitRule (id : Uuid) (algorithm : RateLimitAlgorithm) (spec : RateLimitSpec)
deriving DecidableEq

/-- A signed number that an `INTEGER` column takes. -/
def fitsSigned (n : Int) : Bool := decide (-2 ^ 31 ≤ n ∧ n < 2 ^ 31)

/-- The columns take the rule. -/
def RateLimitSpec.fits (spec : RateLimitSpec) : Bool :=
  fitsSigned spec.requests && fitsSigned spec.windowSeconds && spec.burst.all fitsSigned

def RateLimitRule.spec (r : RateLimitRule) : RateLimitSpec := ⟨r.requests, r.windowSeconds, r.burst⟩

namespace ManagementOp

def apply : ManagementOp → PlatformDb → PlatformDb
  | org (.deleteOrganization id), db => db.deleteOrganization id
  | org o, db => { db with orgs := o.apply db.orgs }
  | platform o, db => o.apply db
  | addOrganization o, db => db.addOrganization o
  | addApi a, db => db.addApi a
  | changeApi id c, db => db.changeApi id c
  | deleteApi id, db => db.deleteApi id
  | addApiVersion v, db => db.addApiVersion v
  | deleteApiVersion id, db => db.deleteApiVersion id
  | addQuota q, db => db.addQuota q
  | deleteQuota id, db => db.deleteQuota id
  | addRateLimitRule r, db => db.addRateLimitRule r
  | setRateLimitRule id algorithm spec, db => db.setRateLimitRule id algorithm spec

/-- An `UPDATE` that finds its row gone, or a value that its column does not take, is an error. -/
def updateCheck (fits there : Bool) : Except Failure Unit :=
  if !fits then .error dataError else if there then .ok () else .error .staleDataError

def check : ManagementOp → PlatformDb → Except Failure Unit
  | org o, db => o.check db.orgs
  | platform o, db => o.check db
  | addOrganization o, db =>
    insertCheck (keptVarchar 200 o.name && keptVarchar 120 o.slug) (db.orgs.organizations.admits o)
  | addApi a, db =>
    insertCheck (keptVarchar 200 a.name && keptVarchar 120 a.slug && keptVarchar 1000 a.description)
      (db.orgs.hasOrganization a.organizationId && db.apis.admits a)
  | changeApi id c, db =>
    updateCheck (c.name.all (keptVarchar 200) && c.description.all (keptVarchar 1000))
      (db.hasApi id)
  | deleteApi _, _ => .ok ()
  | addApiVersion v, db => insertCheck (keptVarchar 40 v.version && keptVarchar 2048 v.upstreamBaseUrl)
      (db.hasApi v.apiId && db.apiVersions.admits v)
  | deleteApiVersion _, _ => .ok ()
  | addQuota q, db => insertCheck (fitsSigned q.maxRequests) (db.hasApi q.apiId && db.quotas.admits q)
  | deleteQuota _, _ => .ok ()
  | addRateLimitRule r, db => insertCheck r.spec.fits (db.hasApi r.apiId && db.rateLimitRules.admits r)
  | setRateLimitRule id _ spec, db =>
    updateCheck spec.fits (db.rateLimitRules.rows.any fun r => r.id == id)

end ManagementOp

abbrev managementTables : Tables where
  Outside := PlatformOutside
  Input := PlatformInput
  Db := PlatformDb
  Op := ManagementOp
  Key := Empty
  apply := ManagementOp.apply
  check := ManagementOp.check
  keys _ := []

/-- A management handler. -/
abbrev Management (α : Type) : Type 1 := Prog managementTables.backend α

/-- The organization service is a part of the management. -/
def orgPart : Embedding orgTables.backend managementTables.backend where
  db := PlatformDb.orgs
  world w := { w with outside := () }
  put w w' := { w with outside := w'.outside }
  env e := ⟨e.time, e.text, e.number, ()⟩
  err := id
  op := .org
  db_apply o d := by cases o <;> rfl
  check_op o d := by
    show o.check d.orgs = (o.check d.orgs).mapError id
    cases o.check d.orgs <;> rfl
  world_put _ _ := rfl

/-- So is the key management. -/
def platformPart : Embedding platformTables.backend managementTables.backend where
  db d := d
  world w := w
  put w _ := w
  env e := e
  err := id
  op := .platform
  db_apply _ _ := rfl
  check_op o d := by
    show o.check d = (o.check d).mapError id
    cases o.check d <;> rfl
  world_put _ _ := rfl

def Org.embed {α : Type} (p : Org α) : Management α := Prog.embed orgPart p

def Platform.embed {α : Type} (p : Platform α) : Management α := Prog.embed platformPart p

namespace Management

/-! ### Repositories -/

def OrganizationRepository.getBySlug (slug : String) : Management (Option Organization) :=
  .query fun db => db.orgs.organizations.one fun o => o.slug == slug

def ApiRepository.getBySlugInOrg (slug : String) (organizationId : Uuid) : Management (Option Api) :=
  .query fun db => db.apis.one fun a => a.slug == slug && a.organizationId == organizationId

def ApiVersionRepository.get (id : Uuid) : Management (Option ApiVersion) :=
  .query fun db => db.apiVersions.one fun v => v.id == id

/-- `add` and `delete` of `BaseRepository`. -/
def BaseRepository.write (o : ManagementOp) : Management Unit := do
  (Prog.set o : Management Unit)
  .flushSession

/-! ### The services -/

def OrganizationService.createOrganization (cfg : Config) (owner : User) (name : String)
    (slug : Option String) :
    Management Organization := do
  let existing ← match slug with
    | some slug => OrganizationRepository.getBySlug slug
    | none => pure none
  if existing.isSome then
    .raise (ErrorClass.conflictError.error "An organization with this slug already exists.")
  else
    let slug ← .query
      fun db : PlatformDb =>
        uniqueSlug (fun s => db.orgs.organizations.rows.any fun o => o.slug == s)
      (slugify cfg (slugOr slug name)) (db.orgs.organizations.rows.length + 1)
    let id ← uuid4
    let org : Organization := { id, name, slug }
    BaseRepository.write (.addOrganization org)
    let roleId ← (Organizations.OrganizationService.roleId .owner).embed
    let memberId ← uuid4
    BaseRepository.write
      (.org (.addMember { id := memberId, organizationId := org.id, userId := owner.id, roleId }))
    return org

namespace ApiCatalogService

def getApi (organizationId apiId : Uuid) : Management Api :=
  (ApiKeys.ApiCatalogService.getApi organizationId apiId).embed

def createApi (cfg : Config) (organizationId : Uuid) (name : String) (slug : Option String)
    (description : String) :
    Management Api := do
  let existing ← match slug with
    | some slug => ApiRepository.getBySlugInOrg slug organizationId
    | none => pure none
  if existing.isSome then
    .raise (ErrorClass.conflictError.error "An API with this slug already exists in the organization.")
  else
    let slug ← .query fun db : PlatformDb =>
      uniqueSlug (fun s => db.apis.rows.any fun a => a.slug == s && a.organizationId == organizationId)
        (slugify cfg (slugOr slug name)) (db.apis.rows.length + 1)
    let id ← uuid4
    BaseRepository.write (.addApi { id, organizationId, name, slug, description, isActive := true })
    getApi organizationId id

/-- The unit of work writes no column whose value is unchanged. -/
def updateApi (organizationId apiId : Uuid) (change : ApiChange) : Management Api := do
  let api ← getApi organizationId apiId
  if api.changed change ≠ api then (Prog.set (.changeApi api.id change) : Management Unit)
  return api.changed change

def deleteApi (organizationId apiId : Uuid) : Management Unit := do
  let api ← getApi organizationId apiId
  BaseRepository.write (.deleteApi api.id)

def addVersion (organizationId apiId : Uuid) (version upstreamBaseUrl : String) (isActive : Bool) :
    Management ApiVersion := do
  let _ ← getApi organizationId apiId
  let existing ← (Gateway.ApiVersionRepository.getActive apiId version).embed
  if existing.isSome then
    .raise (ErrorClass.conflictError.error ("Version '" ++ version ++ "' already exists for this API."))
  else
    let id ← uuid4
    let apiVersion : ApiVersion := { id, apiId, version, upstreamBaseUrl, isActive }
    BaseRepository.write (.addApiVersion apiVersion)
    return apiVersion

def deleteVersion (organizationId apiId versionId : Uuid) : Management Unit := do
  let _ ← getApi organizationId apiId
  let version ← ApiVersionRepository.get versionId
  match version with
  | none => .raise (ErrorClass.notFoundError.error "Version not found for this API.")
  | some version =>
    if version.apiId ≠ apiId then .raise (ErrorClass.notFoundError.error "Version not found for this API.")
    else BaseRepository.write (.deleteApiVersion version.id)

def deleteQuotas : List Quota → Management Unit
  | [] => pure ()
  | existing :: quotas => do
    BaseRepository.write (.deleteQuota existing.id)
    deleteQuotas quotas

def addQuotas (apiId : Uuid) : List (QuotaPeriod × Int) → Management (List Quota)
  | [] => pure []
  | (period, maxRequests) :: quotas => do
    let id ← uuid4
    let q : Quota := { id, apiId, period, maxRequests }
    BaseRepository.write (.addQuota q)
    let created ← addQuotas apiId quotas
    return q :: created

/-- Replace the full quota set. -/
def setQuotas (organizationId apiId : Uuid) (quotas : List (QuotaPeriod × Int)) :
    Management (List Quota) := do
  let _ ← getApi organizationId apiId
  let existing ← (Gateway.QuotaRepository.listForApi apiId).embed
  deleteQuotas existing
  addQuotas apiId quotas

def getQuotas (organizationId apiId : Uuid) : Management (List Quota) := do
  let _ ← getApi organizationId apiId
  (Gateway.QuotaRepository.listForApi apiId).embed

def setRateLimit (organizationId apiId : Uuid) (algorithm : RateLimitAlgorithm) (spec : RateLimitSpec) :
    Management RateLimitRule := do
  let _ ← getApi organizationId apiId
  let existing ← (Gateway.RateLimitRuleRepository.getForApi apiId).embed
  match existing with
  | none =>
    let id ← uuid4
    let rule : RateLimitRule := ⟨id, apiId, algorithm, spec.requests, spec.windowSeconds, spec.burst⟩
    BaseRepository.write (.addRateLimitRule rule)
    return rule
  | some rule =>
    let changed : RateLimitRule :=
      ⟨rule.id, rule.apiId, algorithm, spec.requests, spec.windowSeconds, spec.burst⟩
    if changed ≠ rule then (Prog.set (.setRateLimitRule rule.id algorithm spec) : Management Unit)
    .flushSession
    return changed

def getRateLimit (organizationId apiId : Uuid) : Management (Option RateLimitRule) := do
  let _ ← getApi organizationId apiId
  (Gateway.RateLimitRuleRepository.getForApi apiId).embed

end ApiCatalogService

def ApiKeyService.listKeys (organizationId apiId : Uuid) : Management (List ApiKey) := do
  let _ ← ApiCatalogService.getApi organizationId apiId
  .query fun db : PlatformDb => db.apiKeys.select fun k => k.apiId == apiId

end Management

/-! ### The routes -/

/-- The body of `PUT …/rate-limit` that the schema accepts. -/
structure RateLimitConfig where
  algorithm : RateLimitAlgorithm
  spec : RateLimitSpec
  valid : spec.Valid
  window_le : spec.windowSeconds ≤ 86400
  burst_only : spec.burst.isSome = true → algorithm = .tokenBucket

/-- A call of a management route by the user `caller`. -/
inductive ManagementRequest
  | createOrganization (caller : Uuid) (name : String) (slug : Option String)
  | organization (r : OrgRequest)
  | createApi (caller orgId : Uuid) (name : String) (slug : Option String) (description : String)
  | getApi (caller orgId apiId : Uuid)
  | updateApi (caller orgId apiId : Uuid) (change : ApiChange)
  | deleteApi (caller orgId apiId : Uuid)
  | addVersion (caller orgId apiId : Uuid) (version upstreamBaseUrl : String) (isActive : Bool)
  | deleteVersion (caller orgId apiId versionId : Uuid)
  | setQuota (caller orgId apiId : Uuid) (quotas : List (QuotaPeriod × Int))
  | getQuota (caller orgId apiId : Uuid)
  | setRateLimit (caller orgId apiId : Uuid) (algorithm : RateLimitAlgorithm) (spec : RateLimitSpec)
  | getRateLimit (caller orgId apiId : Uuid)
  | listKeys (caller orgId apiId : Uuid)
  | key (r : ApiKeyRequest)
deriving DecidableEq

/-- The body of the response. -/
inductive ManagementAnswer
  | organization (answer : OrgAnswer)
  | api (api : Api)
  | version (version : ApiVersion)
  | quotas (quotas : List (QuotaPeriod × Int))
  | rateLimit (rule : Option RateLimitRule)
  | keys (keys : List ApiKey)
  | key (answer : ApiKeyAnswer)
  | noContent
deriving DecidableEq

namespace ManagementRequest
open Management

def authorize (permission : Permission) (caller orgId : Uuid) : Management OrganizationMember :=
  (OrgRequest.authorize permission caller orgId).embed

def quotaItems (quotas : List Quota) : ManagementAnswer :=
  .quotas (quotas.map fun q => (q.period, q.maxRequests))

/-- The handlers. -/
def prog (cfg : Config) : ManagementRequest → Management ManagementAnswer
  | createOrganization caller name slug => do
    let owner ← (Organizations.getCurrentUser caller).embed
    let org ← OrganizationService.createOrganization cfg owner name slug
    return .organization (.organization org.id org.name org.slug)
  | organization r => do
    let answer ← (r.prog cfg).embed
    return .organization answer
  | createApi caller orgId name slug description => do
    let _ ← authorize .apiCreate caller orgId
    let api ← ApiCatalogService.createApi cfg orgId name slug description
    return .api api
  | getApi caller orgId apiId => do
    let _ ← authorize .apiRead caller orgId
    let api ← ApiCatalogService.getApi orgId apiId
    return .api api
  | updateApi caller orgId apiId change => do
    let _ ← authorize .apiUpdate caller orgId
    let api ← ApiCatalogService.updateApi orgId apiId change
    return .api api
  | deleteApi caller orgId apiId => do
    let _ ← authorize .apiDelete caller orgId
    ApiCatalogService.deleteApi orgId apiId
    return .noContent
  | addVersion caller orgId apiId version upstreamBaseUrl isActive => do
    let _ ← authorize .apiUpdate caller orgId
    let version ← ApiCatalogService.addVersion orgId apiId version upstreamBaseUrl isActive
    return .version version
  | deleteVersion caller orgId apiId versionId => do
    let _ ← authorize .apiUpdate caller orgId
    ApiCatalogService.deleteVersion orgId apiId versionId
    return .noContent
  | setQuota caller orgId apiId quotas => do
    let _ ← authorize .apiUpdate caller orgId
    let quotas ← ApiCatalogService.setQuotas orgId apiId quotas
    return quotaItems quotas
  | getQuota caller orgId apiId => do
    let _ ← authorize .apiRead caller orgId
    let quotas ← ApiCatalogService.getQuotas orgId apiId
    return quotaItems quotas
  | setRateLimit caller orgId apiId algorithm spec => do
    let _ ← authorize .apiUpdate caller orgId
    let rule ← ApiCatalogService.setRateLimit orgId apiId algorithm spec
    return .rateLimit (some rule)
  | getRateLimit caller orgId apiId => do
    let _ ← authorize .apiRead caller orgId
    let rule ← ApiCatalogService.getRateLimit orgId apiId
    return .rateLimit rule
  | listKeys caller orgId apiId => do
    let _ ← authorize .keyRead caller orgId
    let keys ← ApiKeyService.listKeys orgId apiId
    return .keys keys
  | key r => do
    let answer ← (r.prog cfg).embed
    return .key answer

end ManagementRequest

end TrafficPlatform
