import TrafficPlatform.Gateway
import TrafficPlatform.Kit.Replay
import TrafficPlatform.Locks

/-!
# What a gateway request changes

The call writes no rows and draws no ids; only its quota steps touch the quota counters. A request
that is answered writes its trace (`proxy_writes`).
-/

namespace TrafficPlatform
open Kit Gateway GatewayService

/-- The clock goes on, and no id is drawn. -/
def Counting (w w' : World PlatformOutside) : Prop := w.clock ≤ w'.clock ∧ w'.supply = w.supply

/-- The counters stay too. -/
def SameCounters (w w' : World PlatformOutside) : Prop := Counting w w' ∧ w'.redis = w.redis

theorem Counting.refl (w : World PlatformOutside) : Counting w w := ⟨le_refl _, rfl⟩

theorem Counting.trans (a b c : World PlatformOutside) (h : Counting a b) (h' : Counting b c) :
    Counting a c :=
  ⟨h.1.trans h'.1, h'.2.trans h.2⟩

theorem SameCounters.refl (w : World PlatformOutside) : SameCounters w w := ⟨.refl w, rfl⟩

theorem SameCounters.trans (a b c : World PlatformOutside) (h : SameCounters a b)
    (h' : SameCounters b c) : SameCounters a c :=
  ⟨h.1.trans _ _ _ h'.1, h'.2.trans h.2⟩

theorem reads_now : (now : Platform Time).Reads SameCounters :=
  Prog.reads_ask fun _ _ => ⟨⟨Nat.le_max_left _ _, rfl⟩, rfl⟩

theorem reads_perfCounterNs : perfCounterNs.Reads SameCounters := Prog.reads_ask fun _ w => .refl w

theorem reads_redisEval {α : Type}
    (script : Millis → LimiterStore → Except Failure (α × LimiterStore)) :
    (redisEval script).Reads SameCounters := by
  unfold redisEval
  refine Prog.Reads.bind ⟨fun env w => ?_, fun x => trivial⟩ fun r => ?_
  · dsimp only
    split
    · exact ⟨⟨Nat.le_max_left _ _, rfl⟩, rfl⟩
    · exact .refl _
  · cases r <;> trivial

theorem reads_resolve (cfg : GatewayConfig) (req : IncomingRequest) (presentedKey : Option String) :
    (resolve cfg req presentedKey).Reads SameCounters := by
  unfold resolve authenticate
  refine Prog.Reads.bind ?_ fun r => ?_
  · split
    · trivial
    · refine (Prog.reads_query _).bind fun row => ?_
      cases row with
      | none => trivial
      | some r =>
        refine reads_now.bind fun time => ?_
        split
        · trivial
        · split <;> trivial
  · dsimp only
    split
    · trivial
    · refine (Prog.reads_query _).bind fun version => ?_
      split <;> trivial

theorem reads_enforceRateLimit (apiId apiKeyId : Uuid) :
    (enforceRateLimit apiId apiKeyId).Reads SameCounters := by
  have hcheck : ∀ algorithm keys spec, (checkLimit algorithm keys spec).Reads SameCounters := by
    intro algorithm keys spec
    unfold checkLimit
    cases algorithm with
    | fixedWindow => exact reads_redisEval _
    | slidingWindow => exact reads_now.bind fun _ => reads_perfCounterNs.bind fun _ => reads_redisEval _
    | tokenBucket => exact reads_now.bind fun _ => reads_redisEval _
  unfold enforceRateLimit
  refine (Prog.reads_query _).bind fun rule => ?_
  cases rule with
  | none => trivial
  | some rule =>
    refine (hcheck _ _ _).bind fun result => ?_
    split <;> trivial

theorem reads_listForApi (apiId : Uuid) : (QuotaRepository.listForApi apiId).Reads SameCounters :=
  (Prog.reads_query _).bind fun _ => Prog.reads_ask fun _ w => .refl w

theorem reads_forward (cfg : GatewayConfig) (url : String) (req : IncomingRequest) :
    (forward cfg url req).Reads SameCounters := by
  unfold forward
  refine reads_perfCounterNs.bind fun start => ?_
  refine (Prog.reads_ask fun env w => ⟨⟨Nat.le_max_left _ _, rfl⟩, rfl⟩).bind fun upstream => ?_
  cases upstream with
  | error e => trivial
  | ok upstream => exact reads_perfCounterNs.bind fun _ => trivial

theorem reads_rollbackQuota (k : Uuid) (periods : List QuotaPeriod) :
    (rollbackQuota k periods).Reads Counting := by
  induction periods with
  | nil => trivial
  | cons p periods ih =>
    refine Prog.Reads.bind ?_ fun _ => ih
    refine (reads_now.mono fun _ _ h => h.1).bind fun _ => ?_
    exact (Prog.reads_ask fun _ _ => ⟨Nat.le_max_left _ _, rfl⟩).bind fun _ => trivial

theorem reads_consumeEach (k : Uuid) (quotas : List Quota) (consumed : List QuotaPeriod) :
    (consumeEach k quotas consumed).Reads Counting := by
  induction quotas generalizing consumed with
  | nil => trivial
  | cons q quotas ih =>
    unfold consumeEach
    refine Prog.Reads.bind ?_ fun check => ?_
    · unfold QuotaEnforcer.consume
      refine (reads_now.mono fun _ _ h => h.1).bind fun time => ?_
      refine (Prog.reads_ask fun _ _ => ⟨Nat.le_max_left _ _, rfl⟩).bind fun used => ?_
      split
      · exact (Prog.reads_ask fun _ _ => ⟨Nat.le_max_left _ _, rfl⟩).bind fun _ => trivial
      · trivial
    · split
      · exact (reads_rollbackQuota _ _).bind fun _ => trivial
      · exact ih _

theorem reads_handle (cfg : GatewayConfig) (req : IncomingRequest) (presentedKey : Option String) :
    (handle cfg req presentedKey).Reads Counting := by
  have hcounting : ∀ w w', SameCounters w w' → Counting w w' := fun _ _ h => h.1
  unfold handle
  refine ((reads_resolve _ _ _).mono hcounting).bind fun r => ?_
  refine ((reads_enforceRateLimit _ _).mono hcounting).bind fun rateInfo => ?_
  refine Prog.Reads.bind ?_ fun consumed => ((reads_forward _ _ _).mono hcounting).bind fun result => ?_
  · exact ((reads_listForApi _).mono hcounting).bind fun _ => reads_consumeEach _ _ _
  · cases result with
    | error e =>
      dsimp only
      split
      · exact (reads_rollbackQuota _ _).bind fun _ => trivial
      · trivial
    | ok result => exact (reads_now.mono hcounting).bind fun _ => trivial

/-! ### The trace -/

namespace GatewayOutcome

/-- The row that `RequestLogService.record` adds. -/
def row (outcome : GatewayOutcome) (id : Uuid) (createdAt : Time) : RequestLog where
  id := id
  createdAt := createdAt
  organizationId := outcome.organizationId
  apiId := outcome.apiId
  apiVersionId := outcome.apiVersionId
  apiKeyId := some outcome.apiKeyId
  method := outcome.method
  path := outcome.path
  statusCode := outcome.statusCode
  latencyMs := outcome.latencyMs
  requestBytes := outcome.requestBytes
  responseBytes := outcome.responseBytes
  clientIp := outcome.clientIp
  upstreamUrl := outcome.upstreamUrl

/-- The event that it emits. -/
def event (outcome : GatewayOutcome) (eventId : Uuid) : RequestLogEvent where
  schemaVersion := schemaVersion
  eventId := eventId
  occurredAt := outcome.timestamp
  organizationId := outcome.organizationId
  apiId := outcome.apiId
  apiVersionId := outcome.apiVersionId
  apiKeyId := some outcome.apiKeyId
  method := outcome.method
  path := outcome.path
  statusCode := outcome.statusCode
  latencyMs := outcome.latencyMs
  requestBytes := outcome.requestBytes
  responseBytes := outcome.responseBytes
  clientIp := outcome.clientIp
  upstreamUrl := outcome.upstreamUrl

/-- The day that the usage is counted for. -/
def usageDate (outcome : GatewayOutcome) : Day := outcome.timestamp / dayLength

def isError (outcome : GatewayOutcome) : Bool := decide (500 ≤ outcome.statusCode)

/-- The increment that it makes. -/
def increment (outcome : GatewayOutcome) (id : Uuid) : UsageIncrement where
  id := id
  apiKeyId := outcome.apiKeyId
  apiId := outcome.apiId
  usageDate := outcome.usageDate
  isError := outcome.isError

end GatewayOutcome

theorem record_eq (createdAt : Time) (outcome : GatewayOutcome) :
    RequestLogService.record createdAt outcome = (do
    let id ← uuid4
    .set (.addRequestLog (outcome.row id createdAt))
    let usageId ← uuid4
    .execute (.incrementUsage (outcome.increment usageId))
    let eventId ← uuid4
    let outboxId ← uuid4
    .set (.addOutbox
        (OutboxEmitter.row outboxId createdAt (.requestLog (outcome.event eventId))))) := by
  unfold RequestLogService.record ApiKeyUsageRepository.increment OutboxEmitter.emit
  simp only [Prog.bind_assoc']
  rfl

/-- The writes of a request that is answered. -/
def Traces (w : List PlatformOp) : Prop :=
  ∃ (outcome : GatewayOutcome) (createdAt : Time) (id usageId outboxId eventId : Uuid),
    w = [.incrementUsage (outcome.increment usageId), .addRequestLog (outcome.row id createdAt),
      .addOutbox (OutboxEmitter.row outboxId createdAt (.requestLog (outcome.event eventId)))]

theorem proxy_writes (cfg : GatewayConfig) (request : HttpRequest) :
    (proxy cfg request).Writes (fun _ d w => Traces (w ++ d)) [] [] := by
  unfold proxy
  refine Prog.Writes.ask fun createdAt => Prog.Writes.reads (reads_handle _ _ _) fun outcome => ?_
  rw [record_eq]
  simp only [Prog.bind_assoc']
  refine Prog.Writes.ask
    fun id => Prog.Writes.set <| Prog.Writes.ask fun usageId => Prog.Writes.execute ?_
  refine Prog.Writes.ask fun eventId => Prog.Writes.ask fun outboxId => Prog.Writes.set ?_
  cases response outcome with
  | some resp => exact Prog.Writes.ret ⟨outcome, createdAt, id, usageId, outboxId, eventId, rfl⟩
  | none => exact Prog.Writes.raise

theorem proxy_checked (cfg : GatewayConfig) (request : HttpRequest) :
    (proxy cfg request).Checked PlatformOp.OfRequest := by
  unfold proxy
  refine (Prog.checked_ask _).bind fun createdAt => (reads_handle _ _ _).checked.bind fun outcome => ?_
  refine Prog.Checked.bind ?_ fun _ => ?_
  · rw [record_eq]
    refine (Prog.checked_ask _).bind fun id => (Prog.checked_set trivial).bind fun _ => ?_
    refine (Prog.checked_ask _).bind fun usageId => (Prog.checked_execute trivial).bind fun _ => ?_
    exact (Prog.checked_ask _).bind
      fun eventId => (Prog.checked_ask _).bind fun outboxId => Prog.checked_set trivial
  · cases response outcome <;> trivial

/-! ### What accepted writes do -/

/-- The usage of a key on a day: requests and errors. -/
def PlatformDb.usage (db : PlatformDb) (apiKeyId : Uuid) (day : Day) : Nat × Nat :=
  match db.apiKeyUsage.one fun u => u.apiKeyId == apiKeyId && u.usageDate == day with
  | some u => (u.requestCount, u.errorCount)
  | none => (0, 0)

section
variable {db : PlatformDb} {outcome : GatewayOutcome}

theorem rows_addRequestLog {r : RequestLog} (h : (PlatformOp.addRequestLog r).check db = .ok ()) :
    (db.addRequestLog r).requestLogs.rows = db.requestLogs.rows ++ [r.stored] :=
      Table.rows_insert (insertCheck_eq_ok.1 h).2

theorem rows_addOutbox {r : TelemetryOutbox} (h : (PlatformOp.addOutbox r).check db = .ok ()) :
    (db.addOutbox r).outbox.rows = db.outbox.rows ++ [r] := Table.rows_insert (insertCheck_eq_ok.1 h).2

theorem check_incrementUsage {i : UsageIncrement}
    (h : (PlatformOp.incrementUsage i).check db = .ok ()) :
    db.hasApiKey i.apiKeyId = true ∧
      ((∃ u ∈ db.apiKeyUsage.rows, i.isFor u = true) ∨ db.apiKeyUsage.admits i.row = true) := by
  unfold PlatformOp.check at h
  dsimp only at h
  split at h
  · cases h
  · rename_i hkey
    refine ⟨by simpa using hkey, ?_⟩
    split at h
    · rename_i u hone
      exact .inl ⟨u, Table.mem_of_one hone, Table.pred_of_one hone⟩
    · exact .inr (insertCheck_eq_ok.1 h).2

theorem sum_incrementUsage {i : UsageIncrement} {q : ApiKeyUsage → Bool} {g : ApiKeyUsage → Nat}
    {c : Nat} (h : (PlatformOp.incrementUsage i).check db = .ok ()) (hq : ∀ u, q (i.add u) = q u)
    (hfor : ∀ u, i.isFor u = true → q u = q i.row) (hrow : g i.row = c)
    (hadd : ∀ u, g (i.add u) = g u + c) :
    (((db.incrementUsage i).apiKeyUsage.select q).map g).sum =
      ((db.apiKeyUsage.select q).map g).sum + if q i.row then c else 0 := by
  obtain ⟨hkey, hslot⟩ := check_incrementUsage h
  rw [PlatformDb.incrementUsage_apiKeyUsage hkey]
  split
  · rename_i hany
    obtain ⟨u, hu, hi⟩ := List.any_eq_true.1 hany
    rw [Table.sum_update hu hi (fun _ hb => UsageIncrement.isFor_unique hb hi) hq hadd, hfor u hi]
  · rename_i hany
    have hadmits := hslot.resolve_left fun hfound => hany (List.any_eq_true.2 hfound)
    rw [Table.sum_insert hadmits, hrow]

theorem usage_congr {db' : PlatformDb} (h : db'.apiKeyUsage = db.apiKeyUsage) (k : Uuid) (day : Day) :
    db'.usage k day = db.usage k day := by
  unfold PlatformDb.usage
  rw [h]

theorem usage_eq (db : PlatformDb) (k : Uuid) (day : Day) : db.usage k day =
    (((db.apiKeyUsage.select fun u => u.apiKeyId == k && u.usageDate == day).map (·.requestCount)).sum,
      ((db.apiKeyUsage.select fun u => u.apiKeyId == k && u.usageDate == day).map
          (·.errorCount)).sum) := by
  have hunique : ∀ a b : ApiKeyUsage, (a.apiKeyId == k && a.usageDate == day) = true →
      (b.apiKeyId == k && b.usageDate == day) = true → Schema.clash a b = true := by
    intro a b ha hb
    simp only [Bool.and_eq_true, beq_iff_eq] at ha hb
    exact ApiKeyUsage.clash_iff.2 (.inr ⟨ha.1.trans hb.1.symm, ha.2.trans hb.2.symm⟩)
  rw [Table.select_eq_toList hunique]
  unfold PlatformDb.usage
  cases db.apiKeyUsage.one fun u => u.apiKeyId == k && u.usageDate == day <;> rfl

theorem usage_increment {id : Uuid}
    (h : (PlatformOp.incrementUsage (outcome.increment id)).check db = .ok ()) (k : Uuid)
    (day : Day) :
    (db.incrementUsage (outcome.increment id)).usage k day = if k = outcome.apiKeyId ∧
        day = outcome.usageDate then
      ((db.usage k day).1 + 1, (db.usage k day).2 + (if outcome.isError then 1 else 0)) else
          db.usage k day := by
  have hsum : ∀ g c, g (outcome.increment id).row = c →
      (∀ u, g ((outcome.increment id).add u) = g u + c) →
      (((db.incrementUsage (outcome.increment id)).apiKeyUsage.select
        fun u => u.apiKeyId == k && u.usageDate == day).map g).sum =
        ((db.apiKeyUsage.select fun u => u.apiKeyId == k && u.usageDate == day).map g).sum +
          if outcome.apiKeyId == k && outcome.usageDate == day then c else 0 := by
    intro g c hrow hadd
    refine sum_incrementUsage h (fun _ => rfl) (fun u hu => ?_) hrow hadd
    rw [(UsageIncrement.isFor_iff.1 hu).1, (UsageIncrement.isFor_iff.1 hu).2]
    rfl
  rw [usage_eq, usage_eq, hsum (·.requestCount) 1 rfl fun _ => rfl,
    hsum (·.errorCount) (if outcome.isError then 1 else 0) rfl fun _ => rfl]
  by_cases hsame : k = outcome.apiKeyId ∧ day = outcome.usageDate
  · obtain ⟨rfl, rfl⟩ := hsame
    simp
  · have hother : ¬ (outcome.apiKeyId == k && outcome.usageDate == day) = true := by
      intro he
      simp only [Bool.and_eq_true, beq_iff_eq] at he
      exact hsame ⟨he.1.symm, he.2.symm⟩
    rw [if_neg hsame, if_neg hother, if_neg hother]
    rfl

theorem tables_traces {i : UsageIncrement} {r : RequestLog} {o : TelemetryOutbox}
    (h : Accepted platformTables.backend PlatformOp.OfRequest
      [.incrementUsage i, .addRequestLog r, .addOutbox o] db) :
    let db' : PlatformDb :=
      applyAll platformTables.backend [.incrementUsage i, .addRequestLog r, .addOutbox o] db
    (PlatformOp.incrementUsage i).check db = .ok () ∧ r.fits = true ∧
      db'.apiKeyUsage = (db.incrementUsage i).apiKeyUsage ∧
      db'.requestLogs.rows = db.requestLogs.rows ++ [r.stored] ∧ db'.auditLogs = db.auditLogs ∧
      db'.outbox.rows = db.outbox.rows ++ [o] := by
  obtain ⟨-, husage, -, hlog, -, houtbox, -⟩ := h
  refine ⟨husage, (insertCheck_eq_ok.1 hlog).1, rfl, (rows_addRequestLog hlog).trans ?_,
    db.incrementUsage_auditLogs i, (rows_addOutbox houtbox).trans ?_⟩
  · exact congrArg (fun t : Table RequestLog => t.rows ++ [r.stored]) (db.incrementUsage_requestLogs i)
  · exact congrArg (fun t : Table TelemetryOutbox => t.rows ++ [o]) (db.incrementUsage_outbox i)

end

end TrafficPlatform
