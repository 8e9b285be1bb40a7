import TrafficPlatform.Basic
import TrafficPlatform.Kit.Double
import TrafficPlatform.Kit.Table

/-!
# Telemetry: request logs, usage aggregates, audit logs and the outbox

The rows of `app/models/telemetry.py` and `app/models/analytics.py` with their unique constraints,
and the events of `app/telemetry/events.py`. `created_at` is the start of the transaction that
inserts the row.
-/

namespace TrafficPlatform
open Kit

/-- A date, as its day number. -/
abbrev Day := Nat

/-- One proxied gateway request. -/
structure RequestLog where
  id : Uuid
  createdAt : Time
  organizationId : Uuid
  apiId : Uuid
  apiVersionId : Uuid
  apiKeyId : Option Uuid
  method : String
  path : String
  statusCode : Nat
  latencyMs : ℚ
  requestBytes : Nat
  responseBytes : Nat
  clientIp : String
  upstreamUrl : String
deriving DecidableEq

/-- The usage of a key on a day. -/
structure ApiKeyUsage where
  id : Uuid
  apiKeyId : Uuid
  apiId : Uuid
  usageDate : Day
  requestCount : Nat
  errorCount : Nat
deriving DecidableEq

/-- An administrative action. -/
structure AuditLog where
  id : Uuid
  createdAt : Time
  organizationId : Option Uuid
  actorUserId : Option Uuid
  action : String
  resourceType : String
  resourceId : Option Uuid
  ip : Option String
  metadata : List (String × Uuid)
deriving DecidableEq

/-- The usage of an API on a day. -/
structure DailyUsage where
  id : Uuid
  organizationId : Uuid
  apiId : Uuid
  usageDate : Day
  requestCount : Nat
  errorCount : Nat
  totalLatencyMs : ℚ
  totalRequestBytes : Nat
  totalResponseBytes : Nat
deriving DecidableEq

/-! ### Events -/

def schemaVersion : String := "1.0"

/-- The fields that every event has. -/
structure TelemetryEnvelope where
  schemaVersion : String
  eventId : Uuid
  occurredAt : Time
deriving DecidableEq

structure RequestLogEvent extends TelemetryEnvelope where
  organizationId : Uuid
  apiId : Uuid
  apiVersionId : Uuid
  apiKeyId : Option Uuid
  method : String
  path : String
  statusCode : Nat
  latencyMs : ℚ
  requestBytes : Nat
  responseBytes : Nat
  clientIp : String
  upstreamUrl : String
deriving DecidableEq

structure AuditLogEvent extends TelemetryEnvelope where
  organizationId : Option Uuid
  actorUserId : Option Uuid
  action : String
  resourceType : String
  resourceId : Option Uuid
  ip : Option String
  metadata : List (String × Uuid)
deriving DecidableEq

inductive TelemetryEvent
  | requestLog (e : RequestLogEvent)
  | auditLog (e : AuditLogEvent)
deriving DecidableEq

namespace TelemetryEvent

def eventType : TelemetryEvent → String
  | requestLog _ => "request_log"
  | auditLog _ => "audit_log"

def envelope : TelemetryEvent → TelemetryEnvelope
  | requestLog e => e.toTelemetryEnvelope
  | auditLog e => e.toTelemetryEnvelope

/-- The texts of the payload. -/
def texts : TelemetryEvent → List String
  | requestLog e => [e.method, e.path, e.clientIp, e.upstreamUrl]
  | auditLog e => [e.action, e.resourceType] ++ e.ip.toList ++ e.metadata.map (·.1)

end TelemetryEvent

/-- An event that waits for the publisher; `publishedAt = none` means pending. -/
structure TelemetryOutbox where
  id : Uuid
  createdAt : Time
  eventType : String
  schemaVersion : String
  payload : TelemetryEvent
  publishedAt : Option Time
  attempts : Nat
deriving DecidableEq

/-- The row that `OutboxEmitter.emit` adds. -/
def OutboxEmitter.row (id : Uuid) (createdAt : Time) (event : TelemetryEvent) : TelemetryOutbox where
  id := id
  createdAt := createdAt
  eventType := event.eventType
  schemaVersion := event.envelope.schemaVersion
  payload := event
  publishedAt := none
  attempts := 0

/-- `round(x, 2)` of a double: the double nearest to the nearest number of hundredths. -/
def pyRound2 (x : ℚ) : ℚ := Double.round (Double.halfEven (100 * x) / 100)

/-! ### Constraints -/

instance : Schema RequestLog where
  clash a b := a.id == b.id
  symm a b h := by simpa using (beq_iff_eq.1 h).symm

/-- The primary key, and `uq_api_key_usage_key_date`. -/
instance : Schema ApiKeyUsage where
  clash a b := a.id == b.id || (a.apiKeyId == b.apiKeyId && a.usageDate == b.usageDate)
  symm a b h := by
    simp only [Bool.or_eq_true, Bool.and_eq_true, beq_iff_eq] at h ⊢
    exact h.imp Eq.symm fun h => ⟨h.1.symm, h.2.symm⟩

instance : Schema AuditLog where
  clash a b := a.id == b.id
  symm a b h := by simpa using (beq_iff_eq.1 h).symm

instance : Schema TelemetryOutbox where
  clash a b := a.id == b.id
  symm a b h := by simpa using (beq_iff_eq.1 h).symm

/-- The primary key, and `uq_daily_usage_api_date`. -/
instance : Schema DailyUsage where
  clash a b := a.id == b.id || (a.apiId == b.apiId && a.usageDate == b.usageDate)
  symm a b h := by
    simp only [Bool.or_eq_true, Bool.and_eq_true, beq_iff_eq] at h ⊢
    exact h.imp Eq.symm fun h => ⟨h.1.symm, h.2.symm⟩

theorem ApiKeyUsage.clash_iff {a b : ApiKeyUsage} :
    Schema.clash a b = true ↔ a.id = b.id ∨ (a.apiKeyId = b.apiKeyId ∧ a.usageDate = b.usageDate) := by
  simp [Schema.clash]

theorem DailyUsage.clash_iff {a b : DailyUsage} :
    Schema.clash a b = true ↔ a.id = b.id ∨ (a.apiId = b.apiId ∧ a.usageDate = b.usageDate) := by
  simp [Schema.clash]

/-- A text holds the NUL character. -/
def hasNul (s : String) : Bool := s.toList.contains (Char.ofNat 0)

/-- What a `VARCHAR(n)` column holds of a text that it takes. -/
def varchar (n : Nat) (s : String) : String := .ofList (s.toList.take n)

/-- A text that a `VARCHAR(n)` column takes: what is longer than the column is all spaces and is cut
off, and there is no NUL character. -/
def fitsVarchar (n : Nat) (s : String) : Bool := (s.toList.drop n).all (· == ' ') && !hasNul s

/-- A text that a `VARCHAR(n)` column takes and holds as it is. -/
def keptVarchar (n : Nat) (s : String) : Bool := decide (s.length ≤ n) && !hasNul s

/-- A number that an `INTEGER` column takes. -/
def fitsInteger (n : Nat) : Bool := decide (n < 2 ^ 31)

/-- The columns take the row. -/
def RequestLog.fits (r : RequestLog) : Bool :=
  fitsVarchar 10 r.method && fitsVarchar 2048 r.path && fitsInteger r.statusCode &&
    fitsInteger r.requestBytes &&
    fitsInteger r.responseBytes && fitsVarchar 64 r.clientIp && fitsVarchar 2048 r.upstreamUrl

/-- The row as the columns hold it. -/
def RequestLog.stored (r : RequestLog) : RequestLog :=
  { r with
    method := varchar 10 r.method
    path := varchar 2048 r.path
    clientIp := varchar 64 r.clientIp
    upstreamUrl := varchar 2048 r.upstreamUrl }

@[simp] theorem RequestLog.stored_id (r : RequestLog) : r.stored.id = r.id := rfl

def AuditLog.fits (r : AuditLog) : Bool :=
  fitsVarchar 100 r.action && fitsVarchar 64 r.resourceType && r.ip.all (fitsVarchar 64)

def AuditLog.stored (r : AuditLog) : AuditLog :=
  { r with
    action := varchar 100 r.action
    resourceType := varchar 64 r.resourceType
    ip := r.ip.map (varchar 64) }

@[simp] theorem AuditLog.stored_id (r : AuditLog) : r.stored.id = r.id := rfl

/-- A `JSONB` value holds no NUL character either. -/
def TelemetryOutbox.fits (r : TelemetryOutbox) : Bool :=
  fitsVarchar 64 r.eventType && fitsVarchar 16 r.schemaVersion &&
    r.payload.texts.all fun s => !hasNul s

def DailyUsage.fits (r : DailyUsage) : Bool :=
  fitsInteger r.requestCount && fitsInteger r.errorCount && fitsInteger r.totalRequestBytes &&
    fitsInteger r.totalResponseBytes

end TrafficPlatform
