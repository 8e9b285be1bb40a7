import TrafficPlatform.Gateway.Effects

/-!
# The usage of a key and its request logs, day by day

A request is dated twice: its log by the start of the transaction, its usage by the clock after the
upstream has answered. The two daily aggregates agree as long as no request is answered on another
day than it began (`daily_aggregates_iff`).
-/

namespace TrafficPlatform
open Kit Gateway

/-- The request logs of a key on a day: requests and errors. -/
def PlatformDb.logged (db : PlatformDb) (apiKeyId : Uuid) (day : Day) : Nat × Nat :=
  let logs := db.requestLogs.select
    fun r => r.apiKeyId == some apiKeyId && r.createdAt / dayLength == day
  (logs.length, logs.countP fun r => decide (500 ≤ r.statusCode))

/-- For every key and every day the usage counts the request logs. -/
def PlatformDb.Aggregated (db : PlatformDb) : Prop := ∀ k day, db.usage k day = db.logged k day

/-- The log and the event of a transaction are dated on one day. -/
def OneDay (w : List PlatformOp) : Prop :=
  ∀ r o e, .addRequestLog r ∈ w → .addOutbox o ∈ w → o.payload = .requestLog e →
    r.createdAt / dayLength = e.occurredAt / dayLength

/-- If the event commits a request, it was answered on the day on which its transaction began. -/
def AnsweredInTime (s : System platformTables.backend HttpRequest HttpResponse)
    (e : Event platformTables.backend HttpRequest) : Prop :=
  ∀ r a w, s.commits e = some (r, a, w) → OneDay w

variable {db db' : PlatformDb} {outcome : GatewayOutcome} {createdAt : Time}
    {id usageId outboxId eventId : Uuid}

theorem oneDay_traces :
    OneDay [.incrementUsage (outcome.increment usageId), .addRequestLog (outcome.row id createdAt),
    .addOutbox (OutboxEmitter.row outboxId createdAt (.requestLog (outcome.event eventId)))] ↔
      createdAt / dayLength = outcome.usageDate := by
  constructor
  · intro h
    exact h (outcome.row id createdAt)
      (OutboxEmitter.row outboxId createdAt (.requestLog (outcome.event eventId)))
      (outcome.event eventId) (by simp) (by simp) rfl
  · intro h r o e hr ho he
    simp only [List.mem_cons, List.not_mem_nil, reduceCtorEq, or_false, false_or,
      PlatformOp.addRequestLog.injEq,
      PlatformOp.addOutbox.injEq] at hr ho
    rw [hr]
    rw [ho] at he
    cases he
    exact h

theorem logged_append
    (h : db'.requestLogs.rows = db.requestLogs.rows ++ [(outcome.row id createdAt).stored])
    (k : Uuid) (day : Day) :
    db'.logged k day = if k = outcome.apiKeyId ∧ day = createdAt / dayLength then
      ((db.logged k day).1 + 1, (db.logged k day).2 + (if outcome.isError then 1 else 0)) else
          db.logged k day := by
  have hrow : ((outcome.row id createdAt).stored.apiKeyId == some k &&
      (outcome.row id createdAt).stored.createdAt / dayLength == day) =
      decide (k = outcome.apiKeyId ∧ day = createdAt / dayLength) := by
    rw [Bool.eq_iff_iff, decide_eq_true_iff, Bool.and_eq_true, beq_iff_eq, beq_iff_eq]
    show some outcome.apiKeyId = some k ∧ createdAt / dayLength = day ↔ _
    rw [Option.some_inj, eq_comm (a := k), eq_comm (a := day)]
  unfold PlatformDb.logged Table.select
  dsimp only
  rw [h, List.filter_append, List.filter_cons, List.filter_nil, hrow]
  by_cases hsame : k = outcome.apiKeyId ∧ day = createdAt / dayLength
  · rw [if_pos (decide_eq_true hsame), if_pos hsame, List.length_append, List.countP_append,
      List.countP_singleton]
    rfl
  · rw [if_neg (by simpa using hsame), if_neg hsame, List.append_nil]

/-- A request keeps the aggregates equal exactly if both its dates are one. -/
theorem PlatformDb.Aggregated.traces {w : List PlatformOp} (h : db.Aggregated) (hw : Traces w)
    (ha : Accepted platformTables.backend PlatformOp.OfRequest w db) :
    PlatformDb.Aggregated (applyAll platformTables.backend w db) ↔ OneDay w := by
  obtain ⟨outcome, createdAt, id, usageId, outboxId, eventId, rfl⟩ := hw
  obtain ⟨hcheck, -, husage, hlogs, -, -⟩ := tables_traces ha
  rw [oneDay_traces]
  have hboth := fun k day => (usage_congr husage k day).trans (usage_increment hcheck k day)
  constructor
  · intro hall
    by_contra hne
    have hother : ¬ (outcome.apiKeyId = outcome.apiKeyId ∧ outcome.usageDate = createdAt / dayLength) :=
      fun hd => hne hd.2.symm
    have heq := hall outcome.apiKeyId outcome.usageDate
    rw [hboth, logged_append hlogs, if_pos ⟨rfl, rfl⟩, if_neg hother, h] at heq
    have hcount := congrArg Prod.fst heq
    dsimp only at hcount
    omega
  · intro hd k day
    rw [hboth, logged_append hlogs, hd, h]

theorem gatewayReplay (cfg : GatewayConfig) :
    Replay (proxy cfg) PlatformOp.OfRequest PlatformDb.Agree (fun _ _ w => Traces w) where
  rows := platformRows
  checked := proxy_checked cfg
  writes := proxy_writes cfg

/-- In every run of gateway requests, the usage of every key on every day counts its request logs in
every committed state exactly if no request is committed that was answered on another day than it
began. -/
theorem daily_aggregates_iff (cfg : GatewayConfig) (db : PlatformDb) (world : World PlatformOutside)
    (es : List (Event platformTables.backend HttpRequest)) (h : db.Aggregated) :
    Always (System.next (proxy cfg)) (fun s => s.db.Aggregated) (System.init db world) es ↔
      Meets (System.next (proxy cfg)) AnsweredInTime (System.init db world) es :=
  (gatewayReplay cfg).always_iff (fun _ _ _ _ hw ha hdb => hdb.traces hw ha)
    (System.init_quiet _ _).replayable h es

/-- A request that begins in the last microsecond of a day and is answered on the next one. -/
def midnightRequest : List (Event platformTables.backend HttpRequest) :=
  [.start sampleRequest, .step 0 (sampleGatewayEnv (dayLength - 1))] ++
  List.replicate 40 (.step 0 (sampleGatewayEnv (dayLength + 1)))

theorem sampleDailyDb_aggregated : sampleDailyDb.Aggregated := fun _ _ => rfl

/-- The condition decides the run of a request over midnight. -/
theorem daily_aggregates_iff_midnight : sampleDailyDb.Aggregated ∧
    (Always (System.next (proxy sampleGatewayConfig)) (fun s => s.db.Aggregated)
        (System.init sampleDailyDb sampleGatewayWorld)
        midnightRequest ↔
      Meets (System.next (proxy sampleGatewayConfig)) AnsweredInTime
        (System.init sampleDailyDb sampleGatewayWorld)
        midnightRequest) :=
  ⟨sampleDailyDb_aggregated,
    daily_aggregates_iff sampleGatewayConfig _ _ midnightRequest sampleDailyDb_aggregated⟩

/-- A request over midnight is logged on one day and counted on the next. -/
theorem daily_aggregates_differ : ¬ ∀ (cfg : GatewayConfig) (db : PlatformDb)
    (world : World PlatformOutside) (es : List (Event platformTables.backend HttpRequest)),
    db.Aggregated →
      Always (System.next (proxy cfg)) (fun s => s.db.Aggregated) (System.init db world) es := by
  intro h
  have hrun := always_iff.1
    (h sampleGatewayConfig sampleDailyDb sampleGatewayWorld midnightRequest
      sampleDailyDb_aggregated)
    midnightRequest [] (List.append_nil _).symm
  have hday : (run (System.next (proxy sampleGatewayConfig))
      (System.init sampleDailyDb sampleGatewayWorld)
      midnightRequest).db.usage 43 (epoch / dayLength + 1) ≠
    (run (System.next (proxy sampleGatewayConfig)) (System.init sampleDailyDb sampleGatewayWorld)
      midnightRequest).db.logged 43 (epoch / dayLength + 1) := by decide +kernel
  exact hday (hrun 43 (epoch / dayLength + 1))

end TrafficPlatform
