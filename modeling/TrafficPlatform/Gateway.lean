import TrafficPlatform.Platform
import TrafficPlatform.Security

/-!
# The gateway

`app/services/gateway.py` and `app/services/request_log.py` with their repositories, and the route
of `app/api/gateway.py`: authenticate the key, resolve the API and its version, enforce the rate
limit and the quotas, forward the request, record the outcome.
-/

namespace TrafficPlatform
open Kit

/-- The hop-by-hop headers, and the ones that end at the gateway. -/
def hopByHop : List String :=
  ["connection", "keep-alive", "proxy-authenticate", "proxy-authorization", "te", "trailers",
    "transfer-encoding",
    "upgrade", "host", "content-length", "authorization", "x-api-key"]

/-- The configuration with httpx's decoder: what the value of `Content-Encoding` and a body decode
to. -/
structure GatewayConfig extends Config where
  decodeContent : Option String → Bytes → Option Bytes

structure GatewayResponse where
  statusCode : Nat
  headers : HeaderLines
  content : Bytes
deriving DecidableEq, Repr

structure GatewayOutcome where
  apiKeyId : Uuid
  apiId : Uuid
  apiVersionId : Uuid
  organizationId : Uuid
  method : String
  path : String
  statusCode : Nat
  latencyMs : ℚ
  requestBytes : Nat
  responseBytes : Nat
  clientIp : String
  upstreamUrl : String
  timestamp : Time
  response : GatewayResponse
  /-- `limit` and `remaining`. -/
  rateLimit : Option (Int × Int)
deriving DecidableEq

structure IncomingRequest where
  method : String
  apiSlug : String
  version : String
  upstreamPath : String
  queryString : String
  headers : HeaderLines
  body : Bytes
  clientIp : String
deriving DecidableEq, Repr

/-! ### The world -/

/-- `time.time()` at a clock reading. -/
def Time.unix (t : Time) : ℚ := ((t : ℚ) - (epoch : ℚ)) / (second : ℚ)

/-- Redis's clock at a clock reading. -/
def Time.millis (t : Time) : Millis := ((t : Int) - (epoch : Int)) / 1000

/-- `time.perf_counter_ns()`. -/
def perfCounterNs : Platform Nat := .ask fun env w => (env.number, w)

/-- A script runs on the limiters' keys. -/
def redisEval {α : Type} (script : Millis → LimiterStore → Except Failure (α × LimiterStore)) :
    Platform α := do
  let result ← .attempt fun env (w : World PlatformOutside) =>
    let time := max w.clock env.time
    match script (Time.millis time) w.outside.limits with
    | .ok (a, limits) => (.ok a, { w with clock := time, outside := { w.outside with limits } })
    | .error e => (.error e, w)
  match result with
  | .ok a => return a
  | .error e => .raise e

/-- Rows without an `ORDER BY` come in some order. The unique constraints leave at most two rows
where this is used, and then the rotations are all orders. -/
def inSomeOrder {α : Type} (rows : List α) : Platform (List α) :=
  .ask fun env w => (rows.rotate env.number, w)

/-- `http.request`: the upstream gets the request, and its answer is decoded. -/
def httpRequest (cfg : GatewayConfig) (r : UpstreamRequest) :
    Platform (Except HttpxError HttpxResponse) :=
  .ask fun env w =>
    (match env.reply.upstream with
      | .failure e => .error e
      | .response resp => match cfg.decodeContent resp.headers.decoded.contentEncoding resp.body with
        | some content => .ok ⟨resp.statusCode, resp.headers.decoded, content⟩
        | none => .error .httpError,
      { w with
        clock := max w.clock env.time
        outside := { w.outside with sent := w.outside.sent ++ [r] } })

namespace Gateway

/-! ### Repositories -/

/-- The key with its API, which the foreign key makes sure is there. -/
def ApiKeyRepository.getByHash (keyHash : String) : Platform (Option (ApiKey × Api)) :=
  .query fun db => (db.apiKeys.one fun k => k.keyHash == keyHash).bind fun k =>
    (db.apis.one fun a => a.id == k.apiId).map fun a => (k, a)

def ApiVersionRepository.getActive (apiId : Uuid) (version : String) : Platform (Option ApiVersion) :=
  .query fun db => db.apiVersions.one fun v => v.apiId == apiId && v.version == version

def QuotaRepository.listForApi (apiId : Uuid) : Platform (List Quota) := do
  let rows ← .query fun db : PlatformDb => db.quotas.select fun q => q.apiId == apiId
  inSomeOrder rows

def RateLimitRuleRepository.getForApi (apiId : Uuid) : Platform (Option RateLimitRule) :=
  .query fun db => db.rateLimitRules.one fun r => r.apiId == apiId

theorem periods_nodup (db : PlatformDb) (apiId : Uuid) :
    ((db.quotas.select fun q => q.apiId == apiId).map (·.period)).Nodup := by
  unfold Table.select
  refine List.pairwise_map.2 ((db.quotas.distinct.filter _).imp_of_mem fun {a b} ha hb hab he => hab ?_)
  have ha' : a.apiId = apiId := by simpa using (List.mem_filter.1 ha).2
  have hb' : b.apiId = apiId := by simpa using (List.mem_filter.1 hb).2
  exact Quota.clash_iff.2 (.inr ⟨ha'.trans hb'.symm, he⟩)

/-! ### The service -/

/-- `limiter.check`. -/
def checkLimit (algorithm : RateLimitAlgorithm) (key : RedisKey) (spec : RateLimitSpec) :
    Platform RateLimitResult :=
  match algorithm with
  | .fixedWindow => redisEval fun time s => .ok (FixedWindowLimiter.check key spec time s)
  | .slidingWindow => do
    let time ← now
    let perfCounter ← perfCounterNs
    redisEval fun redisTime s =>
      .ok (SlidingWindowLimiter.check key spec time.unix perfCounter redisTime s)
  | .tokenBucket => do
    let time ← now
    redisEval fun redisTime s => TokenBucketLimiter.check Double.round key spec time.unix redisTime s

namespace GatewayService

def authenticate (cfg : GatewayConfig) (presentedKey : Option String) : Platform (ApiKey × Api) := do
  match presentedKey.filter fun raw => raw != "" with
  | none => .raise (.app ⟨.authenticationError, "missing_api_key", "Missing API key.", []⟩)
  | some raw =>
    let row ← ApiKeyRepository.getByHash (cfg.hashToken raw)
    match row with
    | none => .raise (.app ⟨.authenticationError, "invalid_api_key", "Invalid or expired API key.", []⟩)
    | some (key, api) =>
      let time ← now
      if !key.isValidAt time then
        .raise (.app ⟨.authenticationError, "invalid_api_key", "Invalid or expired API key.", []⟩)
      else if !api.isActive then
        .raise (.app ⟨.authenticationError, "api_disabled", "The target API is disabled.", []⟩)
      else return (key, api)

def enforceRateLimit (apiId apiKeyId : Uuid) : Platform (Option (Int × Int)) := do
  let rule ← RateLimitRuleRepository.getForApi apiId
  match rule with
  | none => return none
  | some rule =>
    let result ← checkLimit rule.algorithm [.uuid apiId, .uuid apiKeyId]
      ⟨rule.requests, rule.windowSeconds, rule.burst⟩
    if !result.allowed then
      .raise (ErrorClass.rateLimitedError.errorWith "Rate limit exceeded for this API key."
        [("retry_after", .int result.retryAfter), ("limit", .int result.limit)])
    else return some (result.limit, result.remaining)

def rollbackQuota (apiKeyId : Uuid) : List QuotaPeriod → Platform Unit
  | [] => pure ()
  | period :: consumed => do
    QuotaEnforcer.rollback apiKeyId period
    rollbackQuota apiKeyId consumed

/-- The loop over the quotas; `consumed` are the periods of those before. -/
def consumeEach (apiKeyId : Uuid) : List Quota → List QuotaPeriod → Platform (List QuotaPeriod)
  | [], consumed => pure consumed
  | quota :: quotas, consumed => do
    let check ← QuotaEnforcer.consume apiKeyId quota.period quota.maxRequests
    if check.exceeded then do
      rollbackQuota apiKeyId (consumed ++ [quota.period])
      .raise (ErrorClass.quotaExceededError.errorWith
        (quota.period.name ++ " quota of " ++ toString quota.maxRequests ++ " requests exceeded.")
        [("period", .text quota.period.name), ("limit", .int quota.maxRequests)])
    else consumeEach apiKeyId quotas (consumed ++ [quota.period])

def enforceQuota (apiId apiKeyId : Uuid) : Platform (List QuotaPeriod) := do
  let quotas ← QuotaRepository.listForApi apiId
  consumeEach apiKeyId quotas []

/-- The URL that is given to httpx. -/
def upstreamUrl (upstreamBaseUrl upstreamPath queryString : String) : String :=
  let url := rstripSlash upstreamBaseUrl
  let url := if upstreamPath ≠ "" then url ++ "/" ++ lstripSlash upstreamPath else url
  if queryString ≠ "" then url ++ "?" ++ queryString else url

/-- The headers that are passed on. -/
def passedOn (headers : HeaderLines) : HeaderLines :=
  headers.filter fun h => !hopByHop.contains (asciiLower h.1)

/-- What `_forward` raises when `http.request` does. -/
def raised : HttpxError → Failure
  | .timeout => .app ⟨.upstreamError, "upstream_timeout", "Upstream request timed out.", []⟩
  | .httpError => ErrorClass.upstreamError.error "Failed to reach the upstream service."
  | .cancelled => .cancelled
  | .other what => .other what

/-- The milliseconds between two readings of `perf_counter`, which returns seconds as a double. -/
def elapsedMs (start stop : Nat) : ℚ :=
  let seconds (ns : Nat) : ℚ := Double.round (Double.round ns / 1000000000)
  Double.round (Double.round (seconds stop - seconds start) * 1000)

/-- What the client of `_forward` gets: the response with the bytes of the request and the latency,
or the exception. -/
def forward (cfg : GatewayConfig) (upstreamBaseUrl : String) (req : IncomingRequest) :
    Platform (Except Failure (GatewayResponse × Nat × ℚ)) := do
  let start ← perfCounterNs
  let upstream ← httpRequest cfg
    ⟨req.method, upstreamUrl upstreamBaseUrl req.upstreamPath req.queryString,
      passedOn req.headers, req.body⟩
  match upstream with
  | .error e => return .error (raised e)
  | .ok upstream =>
    let stop ← perfCounterNs
    return .ok (⟨upstream.statusCode, passedOn upstream.headers.items, upstream.content⟩,
      req.body.length,
      pyRound2 (elapsedMs start stop))

/-- The first part of `handle`: the key and what it is for. -/
def resolve (cfg : GatewayConfig) (req : IncomingRequest) (presentedKey : Option String) :
    Platform (ApiKey × Api × ApiVersion) := do
  let (key, api) ← authenticate cfg presentedKey
  if api.slug ≠ req.apiSlug then
    .raise (.app ⟨.authenticationError, "key_api_mismatch", "API key does not authorize this API.", []⟩)
  else
    let version ← ApiVersionRepository.getActive api.id req.version
    match version.filter (·.isActive) with
    | none => .raise (ErrorClass.notFoundError.error ("No active version '" ++ req.version ++ "' for this API."))
    | some version => return (key, api, version)

def handle (cfg : GatewayConfig) (req : IncomingRequest) (presentedKey : Option String) :
    Platform GatewayOutcome := do
  let (key, api, version) ← resolve cfg req presentedKey
  let rateInfo ← enforceRateLimit api.id key.id
  let consumed ← enforceQuota api.id key.id
  let result ← forward cfg version.upstreamBaseUrl req
  match result with
  | .error e =>
    if e.isException then do
      rollbackQuota key.id consumed
      .raise e
    else .raise e
  | .ok (response, requestBytes, latencyMs) =>
    let timestamp ← now
    return {
      apiKeyId := key.id
      apiId := api.id
      apiVersionId := version.id
      organizationId := key.organizationId
      method := req.method
      path := req.upstreamPath
      statusCode := response.statusCode
      latencyMs := latencyMs
      requestBytes := requestBytes
      responseBytes := response.content.length
      clientIp := req.clientIp
      upstreamUrl := version.upstreamBaseUrl
      timestamp := timestamp
      response := response
      rateLimit := rateInfo }

end GatewayService

/-! ### The request log -/

/-- `ApiKeyUsageRepository.increment`. -/
def ApiKeyUsageRepository.increment (apiKeyId apiId : Uuid) (usageDate : Day) (isError : Bool) :
    Platform Unit := do
  let id ← uuid4
  .execute (.incrementUsage { id, apiKeyId, apiId, usageDate, isError })

/-- `OutboxEmitter.emit`. -/
def OutboxEmitter.emit (createdAt : Time) (event : TelemetryEvent) : Platform Unit := do
  let id ← uuid4
  .set (.addOutbox (OutboxEmitter.row id createdAt event))

/-- `RequestLogService.record` in a transaction that began at `createdAt`. -/
def RequestLogService.record (createdAt : Time) (outcome : GatewayOutcome) : Platform Unit := do
  let id ← uuid4
  .set (.addRequestLog {
    id := id
    createdAt := createdAt
    organizationId := outcome.organizationId
    apiId := outcome.apiId
    apiVersionId := outcome.apiVersionId
    apiKeyId := some outcome.apiKeyId
    method := outcome.method
    path := outcome.path
    statusCode := outcome.statusCode
    latencyMs := outcome.latencyMs
    requestBytes := outcome.requestBytes
    responseBytes := outcome.responseBytes
    clientIp := outcome.clientIp
    upstreamUrl := outcome.upstreamUrl })
  ApiKeyUsageRepository.increment outcome.apiKeyId outcome.apiId (outcome.timestamp / dayLength)
    (decide (500 ≤ outcome.statusCode))
  let eventId ← uuid4
  OutboxEmitter.emit createdAt (.requestLog {
    schemaVersion := schemaVersion
    eventId := eventId
    occurredAt := outcome.timestamp
    organizationId := outcome.organizationId
    apiId := outcome.apiId
    apiVersionId := outcome.apiVersionId
    apiKeyId := some outcome.apiKeyId
    method := outcome.method
    path := outcome.path
    statusCode := outcome.statusCode
    latencyMs := outcome.latencyMs
    requestBytes := outcome.requestBytes
    responseBytes := outcome.responseBytes
    clientIp := outcome.clientIp
    upstreamUrl := outcome.upstreamUrl })

/-! ### The route -/

/-- The first hop of `X-Forwarded-For`, or the peer. -/
def clientIp (request : HttpRequest) : String :=
  match (request.headers.get "x-forwarded-for").filter fun s => s != "" with
  | some forwarded => strip (beforeComma forwarded)
  | none => request.clientHost.getD "unknown"

def extractApiKey (request : HttpRequest) : Option String :=
  match (request.headers.get "authorization").filter
      fun auth => (asciiLower auth).startsWith "bearer " with
  | some auth => some (strip (String.ofList (auth.toList.drop 7)))
  | none => request.headers.get "x-api-key"

def incomingRequest (request : HttpRequest) : IncomingRequest where
  method := request.method
  apiSlug := request.apiSlug
  version := request.version
  upstreamPath := request.upstreamPath
  queryString := request.queryString
  headers := request.headers.dict
  body := request.body
  clientIp := clientIp request

/-- `str(latency_ms)`, for the double nearest to a number of hundredths. -/
def latencyText (x : ℚ) : String :=
  let n := (Double.halfEven (100 * x)).toNat
  let rest := n % 100
  toString (n / 100) ++ "." ++
    (if rest % 10 = 0 then toString (rest / 10) else if rest < 10 then "0" ++
      toString rest else toString rest)

/-- The response that the route builds from an outcome. -/
def response (outcome : GatewayOutcome) : Option HttpResponse :=
  let rateLimit := match outcome.rateLimit with
    | some (limit, remaining) =>
      [("X-RateLimit-Limit", toString limit), ("X-RateLimit-Remaining", toString remaining)]
    | none => []
  starletteResponse outcome.response.content outcome.statusCode
    (outcome.response.headers ++ rateLimit ++ [("X-Gateway-Latency-Ms", latencyText outcome.latencyMs)])

/-- `proxy`: the transaction begins with the lookup of the key, and its start is `now()` for the
rows that it inserts. -/
def proxy (cfg : GatewayConfig) (request : HttpRequest) : Platform HttpResponse := do
  let createdAt ← now
  let outcome ← GatewayService.handle cfg (incomingRequest request) (extractApiKey request)
  RequestLogService.record createdAt outcome
  match response outcome with
  | some resp => return resp
  | none => .raise (.other "UnicodeEncodeError")

end Gateway

/-! ### A small instance -/

/-- One API with a version, a key and some quotas. -/
def samplePlatformDb (quotas : Table Quota) : PlatformDb where
  orgs := sampleOrgDb .owner
  apis := ⟨[⟨41, 5, "Weather", "weather", "", true⟩], by decide⟩
  apiVersions := ⟨[⟨42, 41, "v1", "https://weather.test", true⟩], by decide⟩
  quotas := quotas
  rateLimitRules := .empty
  apiKeys := ⟨[⟨43, 41, 5, "key", "atp_00000000", "0000", "#secret", none, none, none, none⟩],
    by decide⟩
  requestLogs := .empty
  apiKeyUsage := .empty
  auditLogs := .empty
  outbox := .empty
  dailyUsage := .empty
  keyRefers := by decide
  usageRefers := by decide

/-- A quota of one request a day. -/
def sampleDailyDb : PlatformDb := samplePlatformDb ⟨[⟨44, 41, .daily, 1⟩], by decide⟩

def sampleGatewayConfig : GatewayConfig where
  __ := sampleConfig
  decodeContent _ body := some body

/-- A gateway at the start of the day of the epoch. -/
def sampleGatewayWorld : World PlatformOutside := ⟨epoch, 100, Store.empty, ⟨.empty, [], []⟩⟩

/-- A step `n` microseconds into the day, with an upstream that answers. -/
def sampleGatewayEnv (n : Nat) : Env PlatformInput :=
  ⟨epoch + n, "", 0, ⟨.response ⟨200, [], []⟩, .ok ()⟩⟩

def sampleIncoming : IncomingRequest := ⟨"GET", "weather", "v1", "", "", [], [], "10.0.0.1"⟩

def sampleRequest : HttpRequest :=
  ⟨"GET", "weather", "v1", "", "", [("x-api-key", "secret")], [], some "10.0.0.1"⟩

/-- The session of a call at that time. -/
def sampleGatewaySession : Session platformTables.backend :=
  ⟨sampleDailyDb, [], sampleGatewayWorld, fun _ => sampleGatewayEnv 1⟩

end TrafficPlatform
