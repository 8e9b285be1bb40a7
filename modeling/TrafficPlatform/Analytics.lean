import TrafficPlatform.Kit.GroupBy
import TrafficPlatform.Platform
import Mathlib.Data.String.Basic

/-!
# Analytics

The queries of `app/repositories/analytics.py` and `app/repositories/telemetry.py`, and the daily
rollup. PostgreSQL leaves the order of equal rows open: a query that orders its rows breaks the ties
by the path or the id. Latencies are doubles, and it leaves the order in which they are added open,
too: a query that reads adds the least first, and the rollup adds them in an order that its
environment gives.
-/

namespace TrafficPlatform
open Kit

/-- `coalesce(avg(x), 0.0)`. -/
def avg (xs : List ℚ) : ℚ := if xs = [] then 0 else Double.round (Double.sum xs / xs.length)

/-- `coalesce(percentile_cont(q) WITHIN GROUP (ORDER BY x), 0.0)`: interpolates between the
neighbours of the position. -/
def percentileCont (q : ℚ) (xs : List ℚ) : ℚ :=
  let sorted := orderBy (byAsc fun x => x) xs
  let position := Double.round (q * (xs.length - 1))
  let low := sorted.getD ⌊position⌋₊ 0
  let high := sorted.getD ⌈position⌉₊ 0
  let fraction := Double.round (position - ⌊position⌋₊)
  Double.round (low + Double.round (fraction * Double.round (high - low)))

structure Summary where
  requestCount : Nat
  errorCount : Nat
  errorRate : ℚ
  avgLatencyMs : ℚ
  p95LatencyMs : ℚ
deriving DecidableEq

structure EndpointStat where
  path : String
  requestCount : Nat
  avgLatencyMs : ℚ
deriving DecidableEq

structure TimeseriesPoint where
  date : Day
  requestCount : Nat
  errorCount : Nat
  avgLatencyMs : ℚ
deriving DecidableEq

structure KeyStat where
  apiKeyId : Uuid
  requestCount : Nat
  errorCount : Nat
deriving DecidableEq

/-- A row of the rollup query: the sums of a group of request logs. -/
structure RollupRow where
  organizationId : Uuid
  apiId : Uuid
  requests : Nat
  errors : Nat
  latency : ℚ
  reqBytes : Nat
  respBytes : Nat
deriving DecidableEq

/-- The status class of a response. -/
def RequestLog.klass (r : RequestLog) : String :=
  if r.statusCode < 200 then "1xx"
  else if r.statusCode < 300 then "2xx"
  else if r.statusCode < 400 then "3xx"
  else if r.statusCode < 500 then "4xx"
  else "5xx"

def RequestLog.isError (r : RequestLog) : Bool := decide (500 ≤ r.statusCode)

namespace AnalyticsRepository

/-- `_scope`. -/
def scope (organizationId : Uuid) (apiId : Option Uuid) (since : Time) (r : RequestLog) : Bool :=
  r.organizationId == organizationId && decide (since ≤ r.createdAt) && apiId.all (r.apiId == ·)

def summary (organizationId : Uuid) (apiId : Option Uuid) (since : Time) (db : PlatformDb) : Summary :=
  let rows := db.requestLogs.select (scope organizationId apiId since)
  let total := rows.length
  let errs := rows.countP (·.isError)
  { requestCount := total
    errorCount := errs
    errorRate := if total = 0 then 0 else Double.round (errs / total)
    avgLatencyMs := pyRound2 (avg (rows.map (·.latencyMs)))
    p95LatencyMs := pyRound2 (percentileCont (Double.round (95 / 100)) (rows.map (·.latencyMs))) }

def topEndpoints (organizationId : Uuid) (apiId : Option Uuid) (since : Time) (limit : Nat)
    (db : PlatformDb) :
    List EndpointStat :=
  let groups := groupBy (·.path) (db.requestLogs.select (scope organizationId apiId since))
  let stats := groups.map fun g => ⟨g.1, g.2.length, pyRound2 (avg (g.2.map (·.latencyMs)))⟩
  (orderBy (byDesc (·.requestCount) (·.path)) stats).take limit

/-- A dictionary, in the order of its keys. -/
def statusBreakdown (organizationId : Uuid) (apiId : Option Uuid) (since : Time) (db : PlatformDb) :
    List (String × Nat) :=
  let groups := groupBy (·.klass) (db.requestLogs.select (scope organizationId apiId since))
  orderBy (byAsc (·.1)) (groups.map fun g => (g.1, g.2.length))

/-- `count(DISTINCT api_key_id)` does not count `NULL`. -/
def activeKeys (organizationId : Uuid) (apiId : Option Uuid) (since : Time) (db : PlatformDb) : Nat :=
  ((db.requestLogs.select (scope organizationId apiId since)).filterMap (·.apiKeyId)).dedup.length

/-- A day of a series. -/
def point (date : Day) (requests errors : Nat) (latency : ℚ) : TimeseriesPoint :=
  ⟨date, requests, errors, if requests = 0 then 0 else pyRound2 (Double.round (latency / requests))⟩

def dailySeries (organizationId : Uuid) (apiId : Option Uuid) (sinceDate : Day) (db : PlatformDb) :
    List TimeseriesPoint :=
  let rows := db.dailyUsage.select fun u =>
    u.organizationId == organizationId && decide (sinceDate ≤ u.usageDate) && apiId.all (u.apiId == ·)
  orderBy (byAsc (·.date)) ((groupBy (·.usageDate) rows).map fun g =>
    point g.1 (g.2.map (·.requestCount)).sum (g.2.map (·.errorCount)).sum
      (Double.sum (g.2.map (·.totalLatencyMs))))

/-- The query does not use `organizationId`. -/
def topKeys (_organizationId : Uuid) (sinceDate : Day) (limit : Nat) (db : PlatformDb) : List KeyStat :=
  let groups := groupBy (·.apiKeyId) (db.apiKeyUsage.select fun u => decide (sinceDate ≤ u.usageDate))
  let stats := groups.map fun g => ⟨g.1, (g.2.map (·.requestCount)).sum, (g.2.map (·.errorCount)).sum⟩
  (orderBy (byDesc (·.requestCount) (·.apiKeyId)) stats).take limit

/-! ### The rollup -/

/-- The sums of a group, the latencies added in the order of the rows. -/
def rollupRow (organizationId apiId : Uuid) (rows : List RequestLog) : RollupRow where
  organizationId := organizationId
  apiId := apiId
  requests := rows.length
  errors := rows.countP (·.isError)
  latency := Double.addUp (rows.map (·.latencyMs))
  reqBytes := (rows.map (·.requestBytes)).sum
  respBytes := (rows.map (·.responseBytes)).sum

/-- The order in which an aggregate meets the rows. -/
def inAnyOrder {α : Type} (rows : List α) : Platform (List α) :=
  .ask fun env w => (arrange env.number rows, w)

/-- `session.add(DailyUsage(…))` for every row. -/
def addRollup (targetDate : Day) : List RollupRow → Platform Unit
  | [] => pure ()
  | r :: rows => do
    let id ← uuid4
    .set (.addDailyUsage {
      id := id
      organizationId := r.organizationId
      apiId := r.apiId
      usageDate := targetDate
      requestCount := r.requests
      errorCount := r.errors
      totalLatencyMs := r.latency
      totalRequestBytes := r.reqBytes
      totalResponseBytes := r.respBytes })
    addRollup targetDate rows

def rollupDaily (targetDate : Day) : Platform Nat := do
  let start := targetDate * dayLength
  -- time.max is the last microsecond of the day
  let stop := targetDate * dayLength + (dayLength - 1)
  .executeAll fun db => (db.dailyUsage.select fun u => u.usageDate == targetDate).map
    fun u => .deleteDailyUsage u.id
  let logs ← .query
    fun db => db.requestLogs.select
      fun r => decide (start ≤ r.createdAt) && decide (r.createdAt ≤ stop)
  let logs ← inAnyOrder logs
  let rows := (groupBy (fun r : RequestLog => (r.organizationId, r.apiId)) logs).map
    fun g => rollupRow g.1.1 g.1.2 g.2
  addRollup targetDate rows
  .flushSession
  return rows.length

end AnalyticsRepository

/-! ### Request logs and audit logs -/

/-- `LIKE` with its wildcards `%` and `_` and the escape character. -/
def like : List Char → List Char → Bool
  | [], text => text.isEmpty
  | '%' :: pattern, text => text.tails.any (like pattern)
  | '_' :: pattern, text => match text with
    | [] => false
    | _ :: text => like pattern text
  | '\\' :: c :: pattern, text => match text with
    | [] => false
    | d :: text => d == c && like pattern text
  | c :: pattern, text => match text with
    | [] => false
    | d :: text => d == c && like pattern text

/-- The case mappings of Python (`str.upper`) and of the database (`lower`, which `ILIKE` applies). -/
structure CaseMapping where
  upper : String → String
  lower : String → String

/-- The filters of `RequestLogRepository.search`. -/
structure RequestLogFilter where
  apiId : Option Uuid
  method : Option String
  statusMin : Option Int
  statusMax : Option Int
  pathContains : Option String
  since : Option Time
  until_ : Option Time
deriving DecidableEq, Repr

def RequestLogFilter.conditions (f : RequestLogFilter) (cases : CaseMapping) (organizationId : Uuid)
    (r : RequestLog) : Bool :=
  r.organizationId == organizationId && f.apiId.all (r.apiId == ·) &&
    f.method.all (r.method == cases.upper ·) &&
    f.statusMin.all (fun s => decide (s ≤ (r.statusCode : Int))) && f.statusMax.all
      (fun s => decide ((r.statusCode : Int) ≤ s)) &&
    f.pathContains.all
      (fun s => s.isEmpty || like (cases.lower ("%" ++ s ++ "%")).toList
        (cases.lower r.path).toList) &&
    f.since.all (fun t => decide (t ≤ r.createdAt)) && f.until_.all (fun t => decide (r.createdAt ≤ t))

/-- The page and the number of all rows. -/
def RequestLogRepository.search (cases : CaseMapping) (organizationId : Uuid) (f : RequestLogFilter)
    (limit offset : Nat) (db : PlatformDb) : List RequestLog × Nat :=
  let rows := db.requestLogs.select (f.conditions cases organizationId)
  (((orderBy (byDesc (·.createdAt) (·.id)) rows).drop offset).take limit, rows.length)

def AuditLogRepository.listForOrg (organizationId : Uuid) (limit offset : Nat) (db : PlatformDb) :
    List AuditLog :=
  let rows := db.auditLogs.select fun r => r.organizationId == some organizationId
  ((orderBy (byDesc (·.createdAt) (·.id)) rows).drop offset).take limit

end TrafficPlatform
