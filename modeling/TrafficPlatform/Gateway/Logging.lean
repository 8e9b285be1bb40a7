import TrafficPlatform.Gateway.Effects

/-!
# The log of an answered request

The upstream has been called when the route writes the request log, the usage of the key and the
telemetry event; if one of these writes fails, or the response cannot be built after them, the
transaction is rolled back and nothing is left of the request. `answered_request_logged_iff` says
for which requests that does not happen.
-/

namespace TrafficPlatform
open Kit Gateway GatewayService

/-- Nothing but the trace of the outcome is new: one row, one request in the usage, and one event. -/
structure Logged (outcome : GatewayOutcome) (createdAt : Time) (db db' : PlatformDb) : Prop where
  requestLog : ∃ id, db'.requestLogs.rows = db.requestLogs.rows ++ [(outcome.row id createdAt).stored]
  usage : ∀ k day, db'.usage k day = if k = outcome.apiKeyId ∧ day = outcome.usageDate then
    ((db.usage k day).1 + 1, (db.usage k day).2 + (if outcome.isError then 1 else 0)) else
      db.usage k day
  event : ∃ id eventId, db'.outbox.rows = db.outbox.rows ++
    [OutboxEmitter.row id createdAt (.requestLog (outcome.event eventId))]

/-- No row has an id that is still to be drawn. -/
structure PlatformDb.IdsBelow (db : PlatformDb) (supply : Uuid) : Prop where
  requestLogs : ∀ r ∈ db.requestLogs.rows, r.id < supply
  apiKeyUsage : ∀ r ∈ db.apiKeyUsage.rows, r.id < supply
  outbox : ∀ r ∈ db.outbox.rows, r.id < supply

/-- What the tables and the wire take of a request and its answer. -/
structure Loggable (db : PlatformDb) (request : HttpRequest) (outcome : GatewayOutcome) : Prop where
  method : fitsVarchar 10 request.method = true
  path : fitsVarchar 2048 request.upstreamPath = true
  clientIp : fitsVarchar 64 (clientIp request) = true
  upstreamUrl : fitsVarchar 2048 outcome.upstreamUrl = true
  statusCode : fitsInteger outcome.response.statusCode = true
  requestBytes : fitsInteger request.body.length = true
  responseBytes : fitsInteger outcome.response.content.length = true
  requestCount : fitsInteger ((db.usage outcome.apiKeyId outcome.usageDate).1 + 1) = true
  errorCount : fitsInteger
    ((db.usage outcome.apiKeyId outcome.usageDate).2 + (if outcome.isError then 1 else 0)) = true
  headers : (outcome.response.headers.all fun h => isLatin1 (asciiLower h.1) && isLatin1 h.2) = true

section
variable {cfg : GatewayConfig} {req : IncomingRequest} {presentedKey : Option String}
    {db db' : PlatformDb}
  {s s' : Session platformTables.backend} {outcome : GatewayOutcome} {createdAt : Time}

/-! ### The call -/

/-- Where the fields of an outcome come from. -/
structure FromRequest (db : PlatformDb) (req : IncomingRequest) (outcome : GatewayOutcome) : Prop where
  hasApiKey : db.hasApiKey outcome.apiKeyId = true
  method : outcome.method = req.method
  path : outcome.path = req.upstreamPath
  clientIp : outcome.clientIp = req.clientIp
  requestBytes : outcome.requestBytes = req.body.length
  statusCode : outcome.statusCode = outcome.response.statusCode
  responseBytes : outcome.responseBytes = outcome.response.content.length

/-- The key and the API of the outcome are there, and the log will carry the organization of the key. -/
def PlatformDb.Serves (db : PlatformDb) (outcome : GatewayOutcome) : Prop :=
  ∃ key ∈ db.apiKeys.rows, ∃ api ∈ db.apis.rows, api.id = key.apiId ∧
    outcome.apiKeyId = key.id ∧ outcome.apiId = api.id ∧ outcome.organizationId = key.organizationId

theorem resolve_rows (cfg : GatewayConfig) (req : IncomingRequest) (presentedKey : Option String)
    (s : Session platformTables.backend) : (resolve cfg req presentedKey).Ends
      (fun r _ => r.1 ∈ s.db.apiKeys.rows ∧ r.2.1 ∈ s.db.apis.rows ∧ r.2.1.id = r.1.apiId)
          (fun _ _ => True) s := by
  unfold resolve authenticate
  refine Prog.Ends.bind
    (Q := fun r _ => r.1 ∈ s.db.apiKeys.rows ∧ r.2 ∈ s.db.apis.rows ∧ r.2.id = r.1.apiId) ?_
      fun r s₁ hr => ?_
  · split
    · trivial
    · refine Prog.Ends.bind
        (Q := fun row _ => ∀ r ∈ row, r.1 ∈ s.db.apiKeys.rows ∧ r.2 ∈ s.db.apis.rows ∧
          r.2.id = r.1.apiId)
        (Prog.ends_query ?_) fun row s₁ hrow => ?_
      · intro r hr
        obtain ⟨k, hk, hr⟩ := Option.bind_eq_some_iff.1 hr
        obtain ⟨a, ha, rfl⟩ := Option.map_eq_some_iff.1 hr
        exact ⟨Table.mem_of_one hk, Table.mem_of_one ha,
          beq_iff_eq.1 (Table.pred_of_one (p := fun a : Api => a.id == k.apiId) ha)⟩
      · cases row with
        | none => trivial
        | some r =>
          refine Prog.Ends.bind (Q := fun _ _ => True) (Prog.ends_ask trivial) fun time s₂ _ => ?_
          split
          · trivial
          · split
            · trivial
            · exact hrow r rfl
  · dsimp only
    split
    · trivial
    · refine Prog.Ends.bind (Q := fun _ _ => True) (Prog.ends_query trivial) fun version s₂ _ => ?_
      split
      · trivial
      · exact hr

theorem forward_bytes (cfg : GatewayConfig) (url : String) (req : IncomingRequest)
    (s : Session platformTables.backend) :
    (forward cfg url req).Ends (fun result _ => ∀ r, result = .ok r → r.2.1 = req.body.length)
        (fun _ _ => True) s := by
  unfold forward
  refine Prog.Ends.bind (Q := fun _ _ => True) (Prog.ends_ask trivial) fun start s₁ _ => ?_
  refine Prog.Ends.bind (Q := fun _ _ => True) (Prog.ends_ask trivial) fun upstream s₂ _ => ?_
  cases upstream with
  | error e => exact fun r hr => by cases hr
  | ok upstream =>
    refine Prog.Ends.bind (Q := fun _ _ => True) (Prog.ends_ask trivial) fun stop s₃ _ => ?_
    intro r hr
    cases hr
    rfl

theorem handle_fromRequest (cfg : GatewayConfig) (req : IncomingRequest) (presentedKey : Option String)
    (s : Session platformTables.backend) :
    (handle cfg req presentedKey).Ends
        (fun outcome _ => FromRequest s.db req outcome ∧ s.db.Serves outcome)
            (fun _ _ => True) s := by
  unfold handle
  refine (resolve_rows cfg req presentedKey s).bind fun r s₁ ⟨hkey, hapi, hid⟩ => ?_
  refine (Prog.ends_true _ s₁).bind fun rateInfo s₂ _ => ?_
  refine (Prog.ends_true _ s₂).bind fun consumed s₃ _ => ?_
  refine (forward_bytes cfg _ req s₃).bind fun result s₄ hbytes => ?_
  cases result with
  | error e =>
    dsimp only
    split
    · exact (Prog.ends_true _ s₄).bind fun _ _ _ => Prog.ends_raise trivial
    · exact Prog.ends_raise trivial
  | ok result =>
    refine Prog.Ends.bind (Q := fun _ _ => True) (Prog.ends_ask trivial) fun timestamp s₅ _ => ?_
    exact ⟨⟨PlatformDb.hasApiKey_iff.2 ⟨r.1, hkey, rfl⟩, rfl, rfl, rfl, hbytes _ rfl, rfl, rfl⟩,
      r.1, hkey, r.2.1, hapi, hid, rfl, rfl, rfl⟩

/-! ### The writes -/

theorem uuid4_ends {E : Failure → Session platformTables.backend → Prop}
    (s : Session platformTables.backend) :
    (uuid4 : Platform Uuid).Ends (fun id s' => s'.db = s.db ∧ s'.dirty = s.dirty ∧ s.world.supply ≤ id ∧
      s.world.supply ≤ s'.world.supply) E s :=
  Prog.ends_ask ⟨rfl, rfl, Nat.le_max_left _ _, Nat.le_succ_of_le (Nat.le_max_left _ _)⟩

theorem record_ends (createdAt : Time) (outcome : GatewayOutcome) (s : Session platformTables.backend) :
    (RequestLogService.record createdAt outcome).Ends
      (fun _ s' => ∃ id usageId outboxId eventId,
        (s.world.supply ≤ id ∧ s.world.supply ≤ usageId ∧ s.world.supply ≤ outboxId) ∧
        (PlatformOp.incrementUsage (outcome.increment usageId)).check s.db = .ok () ∧
        s'.db = s.db.incrementUsage (outcome.increment usageId) ∧
        s'.dirty = s.dirty ++ [.addRequestLog (outcome.row id createdAt),
          .addOutbox (OutboxEmitter.row outboxId createdAt (.requestLog (outcome.event eventId)))])
      (fun e _ => ∃ usageId, s.world.supply ≤ usageId ∧
        (PlatformOp.incrementUsage (outcome.increment usageId)).check s.db = .error e) s := by
  rw [record_eq]
  refine (uuid4_ends s).bind fun id s₁ hs₁ => ?_
  obtain ⟨hdb₁, hdirty₁, hid, hsupply₁⟩ := hs₁
  refine Prog.Ends.bind
    (Q := fun _ s₂ => s₂ = { s₁ with
      dirty := s₁.dirty ++ [.addRequestLog (outcome.row id createdAt)] })
    (Prog.ends_set rfl) ?_
  rintro _ _ rfl
  refine (uuid4_ends _).bind fun usageId s₃ hs₃ => ?_
  obtain ⟨hdb₃, hdirty₃, husage, hsupply₃⟩ := hs₃
  dsimp only at hdb₃ hdirty₃ husage hsupply₃
  have hcheck : platformTables.backend.check (PlatformOp.incrementUsage (outcome.increment usageId)) s₃.db =
      (PlatformOp.incrementUsage (outcome.increment usageId)).check s.db := by rw [hdb₃, hdb₁]
  refine Prog.ends_execute (fun hc => ?_) fun e hc => ?_
  · rw [hcheck] at hc
    set s₄ : Session platformTables.backend :=
      { s₃ with
        db := platformTables.backend.apply (PlatformOp.incrementUsage (outcome.increment usageId))
          s₃.db } with hs₄
    refine (uuid4_ends s₄).bind
      fun eventId s₅ hs₅ => (uuid4_ends s₅).bind fun outboxId s₆ hs₆ => Prog.ends_set ?_
    obtain ⟨hdb₅, hdirty₅, -, hsupply₅⟩ := hs₅
    obtain ⟨hdb₆, hdirty₆, houtbox, -⟩ := hs₆
    refine ⟨id, usageId, outboxId, eventId, ⟨hid, hsupply₁.trans husage, ?_⟩, hc, ?_, ?_⟩
    · exact hsupply₁.trans (hsupply₃.trans (hsupply₅.trans houtbox))
    · rw [hdb₆, hdb₅, hs₄, hdb₃, hdb₁]
      rfl
    · rw [hdirty₆, hdirty₅, hs₄, hdirty₃, hdirty₁, List.append_assoc]
      rfl
  · rw [hcheck] at hc
    exact ⟨usageId, hsupply₁.trans husage, hc⟩

/-! ### What the writes ask for -/

theorem admits_increment {id : Uuid} (hid : ∀ u ∈ db.apiKeyUsage.rows, u.id ≠ id)
    (hno : ∀ u ∈ db.apiKeyUsage.rows, ¬ (outcome.increment id).isFor u = true) :
    db.apiKeyUsage.admits (outcome.increment id).row = true := by
  refine Table.admits_iff.2 fun u hu hc => ?_
  rcases ApiKeyUsage.clash_iff.1 hc with he | he
  · exact hid u hu he
  · refine hno u hu ?_
    unfold UsageIncrement.isFor
    simp only [Bool.and_eq_true, beq_iff_eq]
    exact he

theorem check_increment {id : Uuid} (hk : db.hasApiKey outcome.apiKeyId = true)
    (hid : ∀ u ∈ db.apiKeyUsage.rows, u.id ≠ id) :
    (PlatformOp.incrementUsage (outcome.increment id)).check db = .ok () ↔
      fitsInteger ((db.usage outcome.apiKeyId outcome.usageDate).1 + 1) = true ∧
      fitsInteger ((db.usage outcome.apiKeyId outcome.usageDate).2 +
          (if outcome.isError then 1 else 0)) = true := by
  unfold PlatformOp.check
  dsimp only
  rw [show (outcome.increment id).apiKeyId = outcome.apiKeyId from rfl, hk, if_neg (by simp)]
  unfold PlatformDb.usage
  rw [show (outcome.increment id).isFor =
    fun u => u.apiKeyId == outcome.apiKeyId && u.usageDate == outcome.usageDate from rfl]
  cases hone : db.apiKeyUsage.one
      fun u => u.apiKeyId == outcome.apiKeyId && u.usageDate == outcome.usageDate with
  | none =>
    dsimp only
    rw [admits_increment hid (Table.one_eq_none.1 hone)]
    cases outcome.isError <;> decide
  | some u =>
    dsimp only
    unfold UsageIncrement.add UsageIncrement.errors GatewayOutcome.increment
    dsimp only
    by_cases hfits : fitsInteger (u.requestCount + 1) = true ∧
      fitsInteger (u.errorCount + (if outcome.isError then 1 else 0)) = true
    · rw [if_pos (by simpa using hfits)]
      simpa using hfits
    · rw [if_neg (by simpa using hfits)]
      exact iff_of_false (by simp) hfits

theorem admits_requestLog {t : Table RequestLog} {r : RequestLog} (h : ∀ x ∈ t.rows, x.id ≠ r.id) :
    t.admits r = true :=
  Table.admits_iff.2 fun x hx hc => h x hx (by simpa [Schema.clash] using hc)

theorem admits_outbox {t : Table TelemetryOutbox} {o : TelemetryOutbox}
    (h : ∀ x ∈ t.rows, x.id ≠ o.id) : t.admits o = true :=
  Table.admits_iff.2 fun x hx hc => h x hx (by simpa [Schema.clash] using hc)

theorem flush_log {r : RequestLog} {o : TelemetryOutbox} (hr : ∀ x ∈ db.requestLogs.rows, x.id ≠ r.id)
    (ho : ∀ x ∈ db.outbox.rows, x.id ≠ o.id) :
    flushAll platformTables.backend [.addRequestLog r, .addOutbox o] db =
      if r.fits && o.fits then .ok ((db.addRequestLog r).addOutbox o) else .error dataError := by
  have hadmits : db.requestLogs.admits r = true := admits_requestLog hr
  have hadmits' : (db.addRequestLog r).outbox.admits o = true := admits_outbox ho
  cases hf : r.fits <;> cases hf' : o.fits <;>
    simp [flushAll, PlatformOp.check, PlatformOp.apply, insertCheck, hadmits, hadmits', hf, hf']

theorem fits_event {id eventId outboxId : Uuid} (h : (outcome.row id createdAt).fits = true) :
    (OutboxEmitter.row outboxId createdAt (.requestLog (outcome.event eventId))).fits = true := by
  unfold RequestLog.fits fitsVarchar GatewayOutcome.row at h
  simp only [Bool.and_eq_true] at h
  have htypes : (fitsVarchar 64 "request_log" && fitsVarchar 16 schemaVersion) = true := by decide
  unfold TelemetryOutbox.fits
  have htexts :
      ((OutboxEmitter.row outboxId createdAt
          (.requestLog (outcome.event eventId))).payload.texts.all fun s =>
      !hasNul s) = true := by
    simp only [OutboxEmitter.row, TelemetryEvent.texts, GatewayOutcome.event, List.all_cons,
      List.all_nil, Bool.and_eq_true,
      Bool.and_true]
    exact ⟨h.1.1.1.1.1.1.2, h.1.1.1.1.1.2.2, h.1.2.2, h.2.2⟩
  rw [htexts, Bool.and_true]
  exact htypes

theorem isAscii_latencyText (x : ℚ) : isAscii (latencyText x) = true := by
  unfold latencyText
  simp only [isAscii_append, isAscii_nat, Bool.true_and]
  have hdot : isAscii "." = true := by decide
  have hzero : isAscii "0" = true := by decide
  rw [hdot, Bool.true_and]
  split
  · exact isAscii_nat _
  · split
    · rw [isAscii_append, hzero, isAscii_nat]
      rfl
    · exact isAscii_nat _

theorem response_isSome : (response outcome).isSome =
    outcome.response.headers.all fun h => isLatin1 (asciiLower h.1) && isLatin1 h.2 := by
  have hnames : isLatin1 (asciiLower "X-RateLimit-Limit") = true ∧
      isLatin1 (asciiLower "X-RateLimit-Remaining") = true ∧
      isLatin1 (asciiLower "X-Gateway-Latency-Ms") = true := by
    simp only [isLatin1, asciiLower, String.toList_map]
    decide
  obtain ⟨hlimit, hremaining, hlatency⟩ := hnames
  have hint := fun n : Int => isLatin1_of_isAscii (isAscii_int n)
  have htext := isLatin1_of_isAscii (isAscii_latencyText outcome.latencyMs)
  unfold response
  rw [starletteResponse_isSome, List.all_append, List.all_append]
  cases outcome.rateLimit <;>
    simp only [List.all_cons, List.all_nil, hlimit, hremaining, hlatency, hint, htext, Bool.and_true]

/-! ### The request -/

/-- The session in which the route calls `handle`: its transaction has begun. -/
def begun (st : State platformTables.backend) (envs : Nat → Env PlatformInput) :
    Session platformTables.backend :=
  Session.step ⟨st.db, [], st.world, envs⟩ { st.world with clock := max st.world.clock (envs 0).time }

/-- The request once `handle` has returned, up to the commit. -/
theorem scope_proxy {request : HttpRequest} {st : State platformTables.backend}
    {envs : Nat → Env PlatformInput}
    (h : ((handle cfg (incomingRequest request) (extractApiKey request)).eval (begun st envs)).1 =
      .ok outcome)
    (hids : st.db.IdsBelow st.world.supply) : ∃ id usageId outboxId eventId,
      (∀ x ∈ st.db.requestLogs.rows, x.id ≠ id) ∧ (∀ x ∈ st.db.apiKeyUsage.rows, x.id ≠ usageId) ∧
      (∀ x ∈ st.db.outbox.rows, x.id ≠ outboxId) ∧
      let r := outcome.row id (max st.world.clock (envs 0).time)
      let o := OutboxEmitter.row outboxId (max st.world.clock (envs 0).time)
        (.requestLog (outcome.event eventId))
      let out := scope (proxy cfg request) envs st
      if (PlatformOp.incrementUsage (outcome.increment usageId)).check st.db = .ok () ∧
          r.fits = true ∧ (response outcome).isSome then
        (∃ resp, out.1 = .ok resp) ∧
          out.2.db = ((st.db.incrementUsage (outcome.increment usageId)).addRequestLog r).addOutbox
            o
      else ∀ resp, out.1 ≠ .ok resp := by
  set createdAt := max st.world.clock (envs 0).time
  set s₂ := ((handle cfg (incomingRequest request) (extractApiKey request)).eval (begun st envs)).2
  have hhandle : (handle cfg (incomingRequest request) (extractApiKey request)).eval
      (begun st envs) = (.ok outcome, s₂) :=
    Prod.ext h rfl
  obtain ⟨hdb, hdirty, hcounting⟩ :=
    (reads_handle cfg (incomingRequest request) (extractApiKey request)).eval
    Counting.refl Counting.trans (begun st envs)
  rw [hhandle] at hdb hdirty hcounting
  have hsupply : s₂.world.supply = st.world.supply := hcounting.2
  obtain ⟨k, hproxy, hnone, hsome⟩ : ∃ k : Unit → Platform HttpResponse,
      (proxy cfg request).eval ⟨st.db, [], st.world, envs⟩ =
      (RequestLogService.record createdAt outcome >>= k).eval s₂ ∧
        (response outcome = none → k () = .raise (.other "UnicodeEncodeError")) ∧
        ∀ resp, response outcome = some resp → k () = pure resp := by
    refine ⟨?k, ?eval, ?none, ?some⟩
    case eval =>
      show (handle cfg (incomingRequest request) (extractApiKey request) >>= _).eval (begun st envs) = _
      rw [Prog.eval_bind, hhandle]
      rfl
    case none =>
      intro hresp
      rw [hresp]
    case some =>
      intro resp hresp
      rw [hresp]
  have hends := record_ends createdAt outcome s₂
  rw [hsupply, show s₂.db = st.db from hdb, show s₂.dirty = [] from hdirty] at hends
  cases hrecord : (RequestLogService.record createdAt outcome).eval s₂ with
  | mk r s₃ =>
  cases r with
  | error e =>
    obtain ⟨usageId, hle, hcheck⟩ := hends.of_error hrecord
    refine ⟨st.world.supply, usageId, st.world.supply, 0, fun x hx => (hids.requestLogs x hx).ne,
      fun x hx => ((hids.apiKeyUsage x hx).trans_le hle).ne, fun x hx => (hids.outbox x hx).ne, ?_⟩
    dsimp only
    rw [if_neg (by rw [hcheck]; simp)]
    have heval : (proxy cfg request).commit.eval ⟨st.db, [], st.world, envs⟩ = (.error e, s₃) := by
      rw [Prog.eval_commit, hproxy, Prog.eval_bind, hrecord]
    rw [scope_of_error heval]
    simp
  | ok _ =>
    obtain ⟨id, usageId, outboxId, eventId, ⟨hid, husage, houtbox⟩, hcheck, hdb₃, hdirty₃⟩ :=
      hends.of_ok hrecord
    rw [List.nil_append] at hdirty₃
    have hfresh : ∀ x ∈ st.db.requestLogs.rows, x.id ≠ id :=
      fun x hx => ((hids.requestLogs x hx).trans_le hid).ne
    have hfresh' : ∀ x ∈ st.db.outbox.rows, x.id ≠ outboxId :=
      fun x hx => ((hids.outbox x hx).trans_le houtbox).ne
    refine ⟨id, usageId, outboxId, eventId, hfresh,
      fun x hx => ((hids.apiKeyUsage x hx).trans_le husage).ne, hfresh', ?_⟩
    dsimp only
    cases hresp : response outcome with
    | none =>
      have heval : (proxy cfg request).commit.eval ⟨st.db, [], st.world, envs⟩ =
          (.error (.other "UnicodeEncodeError"), s₃) := by
        rw [Prog.eval_commit, hproxy, Prog.eval_bind, hrecord]
        dsimp only
        rw [hnone hresp]
        rfl
      rw [if_neg (by simp), scope_of_error heval]
      simp
    | some resp =>
      have hflush : flushAll platformTables.backend s₃.dirty s₃.db =
          if (outcome.row id createdAt).fits then .ok
            (((st.db.incrementUsage (outcome.increment usageId)).addRequestLog
            (outcome.row id createdAt)).addOutbox (OutboxEmitter.row outboxId createdAt
              (.requestLog (outcome.event eventId))))
          else .error dataError := by
        rw [hdirty₃, hdb₃, flush_log (by rw [PlatformDb.incrementUsage_requestLogs]; exact hfresh)
          (by rw [PlatformDb.incrementUsage_outbox]; exact hfresh')]
        cases hf : (outcome.row id createdAt).fits with
        | false => rfl
        | true => rw [fits_event hf]; rfl
      have heval := Prog.eval_commit (proxy cfg request) ⟨st.db, [], st.world, envs⟩
      rw [hproxy, Prog.eval_bind, hrecord] at heval
      dsimp only at heval
      rw [hsome resp hresp] at heval
      simp only [Prog.pure_eq, Prog.eval_ret, hflush] at heval
      cases hf : (outcome.row id createdAt).fits with
      | false =>
        rw [hf] at heval
        rw [if_neg (by simp), scope_of_error heval]
        simp
      | true =>
        rw [hf] at heval
        rw [if_pos ⟨hcheck, rfl, rfl⟩, scope_of_ok heval]
        exact ⟨⟨resp, rfl⟩, rfl⟩

/-- A request whose upstream has answered is answered and leaves its trace, and nothing else,
exactly if its log fits the tables and the headers of the answer can be sent. -/
theorem answered_request_logged_iff (cfg : GatewayConfig) (request : HttpRequest)
    (outcome : GatewayOutcome) (st : State platformTables.backend) (envs : Nat → Env PlatformInput)
    (hids : st.db.IdsBelow st.world.supply)
    (h : ((handle cfg (incomingRequest request) (extractApiKey request)).eval (begun st envs)).1 =
      .ok outcome) :
    let out := scope (proxy cfg request) envs st
    ((∃ resp, out.1 = .ok resp) ∧ Logged outcome (max st.world.clock (envs 0).time) st.db out.2.db) ↔
      Loggable st.db request outcome := by
  intro out
  have hfrom : FromRequest st.db (incomingRequest request) outcome := by
    have hends := handle_fromRequest cfg (incomingRequest request) (extractApiKey request)
      (begun st envs)
    exact (hends.of_ok (Prod.ext h rfl)).1
  obtain ⟨id, usageId, outboxId, eventId, hid, husage, houtbox, hout⟩ := scope_proxy h hids
  have hloggable : Loggable st.db request outcome ↔
      (PlatformOp.incrementUsage (outcome.increment usageId)).check st.db = .ok () ∧
      (outcome.row id (max st.world.clock (envs 0).time)).fits = true ∧
          (response outcome).isSome = true := by
    rw [check_increment hfrom.hasApiKey husage, response_isSome]
    unfold RequestLog.fits GatewayOutcome.row
    dsimp only
    rw [hfrom.method, hfrom.path, hfrom.statusCode, hfrom.requestBytes, hfrom.responseBytes,
      hfrom.clientIp]
    simp only [Bool.and_eq_true, and_assoc]
    constructor
    · exact fun hl => ⟨hl.requestCount, hl.errorCount, hl.method, hl.path, hl.statusCode,
        hl.requestBytes, hl.responseBytes,
        hl.clientIp, hl.upstreamUrl, hl.headers⟩
    · rintro ⟨h₁, h₂, h₃, h₄, h₅, h₆, h₇, h₈, h₉, h₁₀⟩
      exact ⟨h₃, h₄, h₈, h₉, h₅, h₆, h₇, h₁, h₂, h₁₀⟩
  rw [hloggable]
  dsimp only at hout
  constructor
  · rintro ⟨⟨resp, hresp⟩, -⟩
    by_contra hno
    rw [if_neg hno] at hout
    exact hout resp hresp
  · intro hyes
    rw [if_pos hyes] at hout
    obtain ⟨hresp, hdb⟩ := hout
    refine ⟨hresp, ?_⟩
    rw [show out.2.db = _ from hdb]
    refine ⟨⟨id, ?_⟩, fun k day => ?_, outboxId, eventId, ?_⟩
    · have hrows := PlatformDb.incrementUsage_requestLogs st.db (outcome.increment usageId)
      rw [← hrows] at hid ⊢
      exact Table.rows_insert (admits_requestLog hid)
    · rw [← usage_increment hyes.1]
      rfl
    · have hrows := PlatformDb.incrementUsage_outbox st.db (outcome.increment usageId)
      rw [← hrows] at houtbox ⊢
      exact Table.rows_insert (admits_outbox houtbox)

end

def sampleGatewayState : State platformTables.backend := ⟨sampleDailyDb, sampleGatewayWorld⟩

def sampleOutcome (clientIp : String) : GatewayOutcome where
  apiKeyId := 43
  apiId := 41
  apiVersionId := 42
  organizationId := 5
  method := "GET"
  path := ""
  statusCode := 200
  latencyMs := 0
  requestBytes := 0
  responseBytes := 0
  clientIp := clientIp
  upstreamUrl := "https://weather.test"
  timestamp := epoch + 1
  response := ⟨200, [], []⟩
  rateLimit := none

theorem sampleDailyDb_idsBelow : sampleDailyDb.IdsBelow sampleGatewayWorld.supply :=
  ⟨by decide, by decide, by decide⟩

theorem answered_request_logged_iff_sample :
    let out := scope (proxy sampleGatewayConfig sampleRequest) (fun _ => sampleGatewayEnv 1)
      sampleGatewayState
    ((∃ resp, out.1 = .ok resp) ∧
      Logged (sampleOutcome "10.0.0.1") (epoch + 1) sampleDailyDb out.2.db) ↔
      Loggable sampleDailyDb sampleRequest (sampleOutcome "10.0.0.1") :=
  answered_request_logged_iff sampleGatewayConfig sampleRequest
    (sampleOutcome "10.0.0.1") sampleGatewayState
    (fun _ => sampleGatewayEnv 1) sampleDailyDb_idsBelow (by decide +kernel)

/-- A first hop of 65 characters. -/
def longHop : String := String.ofList (List.replicate 65 '1')

/-- The upstream has answered the request of a client with a long first hop in `X-Forwarded-For`,
and no trace of it is left. -/
theorem answered_request_lost : ¬ ∀ (cfg : GatewayConfig) (request : HttpRequest)
    (outcome : GatewayOutcome) (st : State platformTables.backend)
    (envs : Nat → Env PlatformInput),
    st.db.IdsBelow st.world.supply →
    ((handle cfg (incomingRequest request) (extractApiKey request)).eval (begun st envs)).1 =
      .ok outcome →
    let out := scope (proxy cfg request) envs st
    (∃ resp, out.1 = .ok resp) ∧ Logged outcome (max st.world.clock (envs 0).time) st.db out.2.db := by
  intro h
  obtain ⟨⟨resp, hresp⟩, -⟩ := h sampleGatewayConfig
    { sampleRequest with headers := [("x-api-key", "secret"), ("x-forwarded-for", longHop)] }
      (sampleOutcome longHop)
    sampleGatewayState (fun _ => sampleGatewayEnv 1) sampleDailyDb_idsBelow (by decide +kernel)
  have hlost : (scope (proxy sampleGatewayConfig
      { sampleRequest with headers := [("x-api-key", "secret"), ("x-forwarded-for", longHop)] })
      (fun _ => sampleGatewayEnv 1) sampleGatewayState).1.isOk = false := by decide +kernel
  rw [hresp] at hlost
  cases hlost

end TrafficPlatform
