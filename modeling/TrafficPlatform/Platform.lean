import TrafficPlatform.Catalog
import TrafficPlatform.Http
import TrafficPlatform.Organizations
import TrafficPlatform.Telemetry

/-!
# The database of the gateway, the key management and the background tasks

The tables of the catalog and of the telemetry next to those of the organizations, the row writes, and
what the handlers use outside the database: the state of the rate limiters in Redis and the upstreams.
-/

namespace TrafficPlatform
open Kit

/-- The tables, with the foreign keys of the keys and of their usage. -/
structure PlatformDb where
  orgs : OrgDb
  apis : Table Api
  apiVersions : Table ApiVersion
  quotas : Table Quota
  rateLimitRules : Table RateLimitRule
  apiKeys : Table ApiKey
  requestLogs : Table RequestLog
  apiKeyUsage : Table ApiKeyUsage
  auditLogs : Table AuditLog
  outbox : Table TelemetryOutbox
  dailyUsage : Table DailyUsage
  keyRefers : ∀ k ∈ apiKeys.rows, ∃ a ∈ apis.rows, a.id = k.apiId
  usageRefers : ∀ u ∈ apiKeyUsage.rows, ∃ k ∈ apiKeys.rows, k.id = u.apiKeyId

/-- The columns of an API key that change after its creation; `none` leaves a column alone. -/
structure ApiKeyChange where
  expiresAt : Option Time := none
  revokedAt : Option Time := none
  rotatedTo : Option Uuid := none
deriving DecidableEq, Repr

/-- The key after the `UPDATE`. -/
def ApiKey.changed (k : ApiKey) (c : ApiKeyChange) : ApiKey where
  __ := k
  expiresAt := c.expiresAt <|> k.expiresAt
  revokedAt := c.revokedAt <|> k.revokedAt
  rotatedTo := c.rotatedTo <|> k.rotatedTo

/-- What `ApiKeyUsageRepository.increment` is called with, and the id of the row if it is new. -/
structure UsageIncrement where
  id : Uuid
  apiKeyId : Uuid
  apiId : Uuid
  usageDate : Day
  isError : Bool
deriving DecidableEq, Repr

namespace UsageIncrement

/-- The row that the increment belongs to. -/
def isFor (i : UsageIncrement) (u : ApiKeyUsage) : Bool :=
  u.apiKeyId == i.apiKeyId && u.usageDate == i.usageDate

def errors (i : UsageIncrement) : Nat := if i.isError then 1 else 0

/-- The row that is inserted. -/
def row (i : UsageIncrement) : ApiKeyUsage where
  id := i.id
  apiKeyId := i.apiKeyId
  apiId := i.apiId
  usageDate := i.usageDate
  requestCount := 1
  errorCount := i.errors

/-- `ON CONFLICT DO UPDATE`. -/
def add (i : UsageIncrement) (u : ApiKeyUsage) : ApiKeyUsage :=
  { u with requestCount := u.requestCount + 1, errorCount := u.errorCount + i.errors }

theorem isFor_iff {i : UsageIncrement} {u : ApiKeyUsage} :
    i.isFor u = true ↔ u.apiKeyId = i.apiKeyId ∧ u.usageDate = i.usageDate := by
  simp [isFor]

theorem isFor_unique {i : UsageIncrement} {u u' : ApiKeyUsage} (h : i.isFor u = true)
    (h' : i.isFor u' = true) :
    Schema.clash u u' = true := by
  rw [isFor_iff] at h h'
  exact ApiKeyUsage.clash_iff.2 (.inr ⟨h.1.trans h'.1.symm, h.2.trans h'.2.symm⟩)

theorem clash_add (i : UsageIncrement) (u u' : ApiKeyUsage) :
    Schema.clash (i.add u) u' = Schema.clash u u' := by
  simp [Schema.clash, add]

end UsageIncrement

/-- A row write. -/
inductive PlatformOp
  | addApiKey (k : ApiKey)
  | changeApiKey (id : Uuid) (c : ApiKeyChange)
  | addRequestLog (r : RequestLog)
  | incrementUsage (i : UsageIncrement)
  | addAuditLog (r : AuditLog)
  | addOutbox (r : TelemetryOutbox)
  | setOutbox (id : Uuid) (publishedAt : Option Time) (attempts : Nat)
  | deleteDailyUsage (id : Uuid)
  | addDailyUsage (r : DailyUsage)
deriving DecidableEq

/-- A row, or an entry of a unique index. -/
inductive PlatformKey
  | apiKeyRow (id : Uuid)
  | keyHash (hash : String)
  | requestLogRow (id : Uuid)
  | usageRow (id : Uuid)
  | usagePair (apiKeyId : Uuid) (usageDate : Day)
  | auditLogRow (id : Uuid)
  | outboxRow (id : Uuid)
  | dailyUsageRow (id : Uuid)
  | dailyUsagePair (apiId : Uuid) (usageDate : Day)
deriving DecidableEq, Repr

namespace PlatformDb

def hasApi (db : PlatformDb) (id : Uuid) : Bool := db.apis.rows.any fun a => a.id == id

def hasApiKey (db : PlatformDb) (id : Uuid) : Bool := db.apiKeys.rows.any fun k => k.id == id

def hasOutbox (db : PlatformDb) (id : Uuid) : Bool := db.outbox.rows.any fun r => r.id == id

theorem hasApiKey_iff {db : PlatformDb} {id : Uuid} : db.hasApiKey id = true ↔
    ∃ k ∈ db.apiKeys.rows, k.id = id := by
  simp [hasApiKey]

def addApiKey (db : PlatformDb) (k : ApiKey) : PlatformDb :=
  if h : db.hasApi k.apiId = true then
    { db with
      apiKeys := db.apiKeys.insert k
      keyRefers := fun k' hk' => by
        rcases Table.mem_or_eq_of_mem_insert hk' with hk' | rfl
        · exact db.keyRefers k' hk'
        · simpa [hasApi] using h
      usageRefers := fun u hu => by
        obtain ⟨k', hk', he⟩ := db.usageRefers u hu
        exact ⟨k', Table.mem_insert_of_mem hk', he⟩ }
  else db

def changeApiKey (db : PlatformDb) (id : Uuid) (c : ApiKeyChange) : PlatformDb where
  __ := db
  apiKeys := db.apiKeys.update (fun k => k.id == id) (·.changed c) fun a b => by
    simp [Schema.clash, ApiKey.changed]
  keyRefers k' hk' := by
    obtain ⟨k, hk, rfl⟩ := Table.mem_update.1 hk'
    split <;> exact db.keyRefers k hk
  usageRefers u hu := by
    obtain ⟨k, hk, he⟩ := db.usageRefers u hu
    exact ⟨_, Table.mem_update_of_mem hk, by split <;> exact he⟩

def addRequestLog (db : PlatformDb) (r : RequestLog) : PlatformDb :=
  { db with requestLogs := db.requestLogs.insert r.stored }

def incrementUsage (db : PlatformDb) (i : UsageIncrement) : PlatformDb :=
  if h : db.hasApiKey i.apiKeyId = true then
    if db.apiKeyUsage.rows.any i.isFor then
      { db with
        apiKeyUsage := db.apiKeyUsage.update i.isFor i.add fun a b => by
          simp [Schema.clash, UsageIncrement.add]
        usageRefers := fun u' hu' => by
          obtain ⟨u, hu, rfl⟩ := Table.mem_update.1 hu'
          split <;> exact db.usageRefers u hu }
    else
      { db with
        apiKeyUsage := db.apiKeyUsage.insert i.row
        usageRefers := fun u hu => by
          rcases Table.mem_or_eq_of_mem_insert hu with hu | rfl
          · exact db.usageRefers u hu
          · exact hasApiKey_iff.1 h }
  else db

def addAuditLog (db : PlatformDb) (r : AuditLog) : PlatformDb :=
  { db with auditLogs := db.auditLogs.insert r.stored }

def addOutbox (db : PlatformDb) (r : TelemetryOutbox) : PlatformDb :=
  { db with outbox := db.outbox.insert r }

def setOutbox (db : PlatformDb) (id : Uuid) (publishedAt : Option Time) (attempts : Nat) : PlatformDb :=
  { db with
    outbox := db.outbox.update (fun r => r.id == id) (fun r => { r with publishedAt, attempts })
        fun a b => by
      simp [Schema.clash] }

def deleteDailyUsage (db : PlatformDb) (id : Uuid) : PlatformDb :=
  { db with dailyUsage := db.dailyUsage.delete fun r => r.id == id }

def addDailyUsage (db : PlatformDb) (r : DailyUsage) : PlatformDb :=
  { db with dailyUsage := db.dailyUsage.insert r }

section
variable (db : PlatformDb) (i : UsageIncrement)

@[simp] theorem incrementUsage_orgs : (db.incrementUsage i).orgs = db.orgs := by
  unfold incrementUsage
  split <;> first | rfl | split <;> rfl

@[simp] theorem incrementUsage_apis : (db.incrementUsage i).apis = db.apis := by
  unfold incrementUsage
  split <;> first | rfl | split <;> rfl

@[simp] theorem incrementUsage_apiKeys : (db.incrementUsage i).apiKeys = db.apiKeys := by
  unfold incrementUsage
  split <;> first | rfl | split <;> rfl

@[simp] theorem incrementUsage_requestLogs : (db.incrementUsage i).requestLogs = db.requestLogs := by
  unfold incrementUsage
  split <;> first | rfl | split <;> rfl

@[simp] theorem incrementUsage_dailyUsage : (db.incrementUsage i).dailyUsage = db.dailyUsage := by
  unfold incrementUsage
  split <;> first | rfl | split <;> rfl

@[simp] theorem incrementUsage_auditLogs : (db.incrementUsage i).auditLogs = db.auditLogs := by
  unfold incrementUsage
  split <;> first | rfl | split <;> rfl

@[simp] theorem incrementUsage_outbox : (db.incrementUsage i).outbox = db.outbox := by
  unfold incrementUsage
  split <;> first | rfl | split <;> rfl

end

theorem incrementUsage_apiKeyUsage {db : PlatformDb} {i : UsageIncrement}
    (h : db.hasApiKey i.apiKeyId = true) :
    (db.incrementUsage i).apiKeyUsage = if db.apiKeyUsage.rows.any i.isFor then
      db.apiKeyUsage.update i.isFor i.add i.clash_add else db.apiKeyUsage.insert i.row := by
  unfold incrementUsage
  rw [dif_pos h]
  split <;> rfl

end PlatformDb

/-- A value that a column does not take. -/
def dataError : Failure := .other "DBAPIError"

/-- An insert fails on a value that its column does not take, and on a violated constraint. -/
def insertCheck (fits admits : Bool) : Except Failure Unit :=
  if !fits then .error dataError else if admits then .ok () else .error .integrityError

theorem insertCheck_eq_ok {fits admits : Bool} : insertCheck fits admits = .ok () ↔ fits = true ∧
    admits = true := by
  unfold insertCheck
  cases fits <;> cases admits <;> simp

namespace PlatformOp

def apply : PlatformOp → PlatformDb → PlatformDb
  | addApiKey k, db => db.addApiKey k
  | changeApiKey id c, db => db.changeApiKey id c
  | addRequestLog r, db => db.addRequestLog r
  | incrementUsage i, db => db.incrementUsage i
  | addAuditLog r, db => db.addAuditLog r
  | addOutbox r, db => db.addOutbox r
  | setOutbox id publishedAt attempts, db => db.setOutbox id publishedAt attempts
  | deleteDailyUsage id, db => db.deleteDailyUsage id
  | addDailyUsage r, db => db.addDailyUsage r

def check : PlatformOp → PlatformDb → Except Failure Unit
  | addApiKey k, db =>
    insertCheck (keptVarchar 200 k.name)
      (db.hasApi k.apiId && db.orgs.hasOrganization k.organizationId &&
      k.createdByUserId.all db.orgs.hasUser && db.apiKeys.admits k)
  | changeApiKey id _, db => if db.hasApiKey id then .ok () else .error .staleDataError
  | addRequestLog r, db => insertCheck r.fits (db.requestLogs.admits r)
  | incrementUsage i, db =>
    if !db.hasApiKey i.apiKeyId then .error .integrityError
    else match db.apiKeyUsage.one i.isFor with
      | some u =>
        if fitsInteger (i.add u).requestCount && fitsInteger (i.add u).errorCount then .ok ()
        else .error dataError
      | none => insertCheck true (db.apiKeyUsage.admits i.row)
  | addAuditLog r, db => insertCheck r.fits (db.auditLogs.admits r)
  | addOutbox r, db => insertCheck r.fits (db.outbox.admits r)
  | setOutbox id _ _, db => if db.hasOutbox id then .ok () else .error .staleDataError
  | deleteDailyUsage _, _ => .ok ()
  | addDailyUsage r, db => insertCheck r.fits (db.dailyUsage.admits r)

def keys : PlatformOp → List PlatformKey
  | addApiKey k => [.apiKeyRow k.id, .keyHash k.keyHash]
  | changeApiKey id _ => [.apiKeyRow id]
  | addRequestLog r => [.requestLogRow r.id]
  | incrementUsage i => [.usageRow i.id, .usagePair i.apiKeyId i.usageDate]
  | addAuditLog r => [.auditLogRow r.id]
  | addOutbox r => [.outboxRow r.id]
  | setOutbox id _ _ => [.outboxRow id]
  | deleteDailyUsage id => [.dailyUsageRow id]
  | addDailyUsage r => [.dailyUsageRow r.id, .dailyUsagePair r.apiId r.usageDate]

end PlatformOp

/-- Outside the database: the limiters' keys in Redis, the requests sent to upstreams, and the
batches handed to the telemetry sink. -/
structure PlatformOutside where
  limits : LimiterStore
  sent : List UpstreamRequest
  delivered : List (List TelemetryEvent)

/-- What an upstream answers, and whether the sink raises. -/
structure PlatformInput where
  upstream : UpstreamReply
  sink : Except Failure Unit

abbrev platformTables : Tables where
  Outside := PlatformOutside
  Input := PlatformInput
  Db := PlatformDb
  Op := PlatformOp
  Key := PlatformKey
  apply := PlatformOp.apply
  check := PlatformOp.check
  keys := PlatformOp.keys

/-- A handler or a task of the platform. -/
abbrev Platform (α : Type) : Type 1 := Prog platformTables.backend α

end TrafficPlatform
