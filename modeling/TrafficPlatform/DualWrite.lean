import TrafficPlatform.ApiKeys
import TrafficPlatform.Gateway.Logging

/-!
# The dual writes

A gateway request adds its log, its event and one request to the usage of its key in one
transaction, and the key management its audit log with its event. So in every committed state the
tables tell the same (`dual_write_consistency`).
-/

namespace TrafficPlatform
open Kit Gateway GatewayService ApiKeys

/-! ### What the tables tell -/

/-- What a request log and its event have in common. -/
structure RequestTrace where
  organizationId : Uuid
  apiId : Uuid
  apiVersionId : Uuid
  apiKeyId : Option Uuid
  method : String
  path : String
  statusCode : Nat
  latencyMs : ℚ
  requestBytes : Nat
  responseBytes : Nat
  clientIp : String
  upstreamUrl : String
deriving DecidableEq

def RequestLog.trace (r : RequestLog) : RequestTrace :=
  ⟨r.organizationId, r.apiId, r.apiVersionId, r.apiKeyId, r.method, r.path, r.statusCode,
    r.latencyMs, r.requestBytes,
    r.responseBytes, r.clientIp, r.upstreamUrl⟩

/-- The common part as the columns of the log hold it. -/
def RequestTrace.stored (t : RequestTrace) : RequestTrace :=
  { t with
    method := varchar 10 t.method
    path := varchar 2048 t.path
    clientIp := varchar 64 t.clientIp
    upstreamUrl := varchar 2048 t.upstreamUrl }

/-- The columns take the texts: what they cut off is spaces. -/
def RequestTrace.fits (t : RequestTrace) : Bool :=
  fitsVarchar 10 t.method && fitsVarchar 2048 t.path && fitsVarchar 64 t.clientIp &&
    fitsVarchar 2048 t.upstreamUrl

def RequestLogEvent.trace (e : RequestLogEvent) : RequestTrace :=
  ⟨e.organizationId, e.apiId, e.apiVersionId, e.apiKeyId, e.method, e.path, e.statusCode,
    e.latencyMs, e.requestBytes,
    e.responseBytes, e.clientIp, e.upstreamUrl⟩

/-- What an audit log and its event have in common. -/
structure AuditTrace where
  organizationId : Option Uuid
  actorUserId : Option Uuid
  action : String
  resourceType : String
  resourceId : Option Uuid
  ip : Option String
  metadata : List (String × Uuid)
deriving DecidableEq

def AuditLog.trace (r : AuditLog) : AuditTrace :=
  ⟨r.organizationId, r.actorUserId, r.action, r.resourceType, r.resourceId, r.ip, r.metadata⟩

def AuditTrace.stored (t : AuditTrace) : AuditTrace :=
  { t with
    action := varchar 100 t.action
    resourceType := varchar 64 t.resourceType
    ip := t.ip.map (varchar 64) }

def AuditTrace.fits (t : AuditTrace) : Bool :=
  fitsVarchar 100 t.action && fitsVarchar 64 t.resourceType && t.ip.all (fitsVarchar 64)

def AuditLogEvent.trace (e : AuditLogEvent) : AuditTrace :=
  ⟨e.organizationId, e.actorUserId, e.action, e.resourceType, e.resourceId, e.ip, e.metadata⟩

def TelemetryEvent.requestLog? : TelemetryEvent → Option RequestLogEvent
  | requestLog e => some e
  | auditLog _ => none

def TelemetryEvent.auditLog? : TelemetryEvent → Option AuditLogEvent
  | requestLog _ => none
  | auditLog e => some e

namespace PlatformDb

/-- The `request_log` events of the outbox. -/
def requestEvents (db : PlatformDb) : List RequestLogEvent :=
  db.outbox.rows.filterMap fun r => r.payload.requestLog?

/-- The `audit_log` events of the outbox. -/
def auditEvents (db : PlatformDb) : List AuditLogEvent :=
  db.outbox.rows.filterMap fun r => r.payload.auditLog?

/-- The requests of a key over all days. -/
def totalRequests (db : PlatformDb) (apiKeyId : Uuid) : Nat :=
  ((db.apiKeyUsage.select fun u => u.apiKeyId == apiKeyId).map (·.requestCount)).sum

/-- The errors of a key over all days. -/
def totalErrors (db : PlatformDb) (apiKeyId : Uuid) : Nat :=
  ((db.apiKeyUsage.select fun u => u.apiKeyId == apiKeyId).map (·.errorCount)).sum

/-- The request logs of a key. -/
def logsOf (db : PlatformDb) (apiKeyId : Uuid) : List RequestLog :=
  db.requestLogs.select fun r => r.apiKeyId == some apiKeyId

/-- The logs and their events are in one-to-one correspondence, a log with the texts of its event as
its columns hold them, and the usage of every key counts its logs. -/
structure DualWritten (db : PlatformDb) : Prop where
  requestLogs : (db.requestLogs.rows.map (·.trace)).Perm (db.requestEvents.map (·.trace.stored))
  requestTexts : ∀ e ∈ db.requestEvents, e.trace.fits = true
  auditLogs : (db.auditLogs.rows.map (·.trace)).Perm (db.auditEvents.map (·.trace.stored))
  auditTexts : ∀ e ∈ db.auditEvents, e.trace.fits = true
  requestCount : ∀ k, db.totalRequests k = (db.logsOf k).length
  errorCount : ∀ k, db.totalErrors k = (db.logsOf k).countP fun r => decide (500 ≤ r.statusCode)

end PlatformDb

/-! ### The requests -/

/-- A request to the gateway or to the key management. -/
inductive PlatformRequest
  | gateway (request : HttpRequest)
  | apiKey (request : ApiKeyRequest)

inductive PlatformAnswer
  | gateway (response : HttpResponse)
  | apiKey (answer : ApiKeyAnswer)

def PlatformRequest.prog (cfg : GatewayConfig) : PlatformRequest → Platform PlatformAnswer
  | gateway request => do
    let response ← proxy cfg request
    return .gateway response
  | apiKey request => do
    let answer ← request.prog cfg.toConfig
    return .apiKey answer

abbrev PlatformSystem : Type 1 := System platformTables.backend PlatformRequest PlatformAnswer

abbrev PlatformEvent : Type := Event platformTables.backend PlatformRequest

/-- One step of some transaction. -/
abbrev platformNext (cfg : GatewayConfig) : PlatformSystem → PlatformEvent → PlatformSystem :=
  System.next (PlatformRequest.prog cfg)

/-! ### What they write -/

/-- A write to the API keys. -/
def PlatformOp.OfKeys : PlatformOp → Prop
  | .addApiKey _ => True
  | .changeApiKey _ _ => True
  | _ => False

/-- The writes of a key management request that is answered. -/
def Audits (w : List PlatformOp) : Prop :=
  ∃ (keyOps : List PlatformOp) (r : AuditLog) (outboxId : Uuid) (createdAt : Time) (e : AuditLogEvent),
    (∀ o ∈ keyOps, o.OfKeys) ∧ e.trace = r.trace ∧
      w = keyOps ++ [.addAuditLog r, .addOutbox (OutboxEmitter.row outboxId createdAt (.auditLog e))]

/-- The writes of a request that is answered. -/
def PlatformRequest.Writes : PlatformRequest → List PlatformOp → Prop
  | gateway _, w => Traces w
  | apiKey _, w => Audits w

section
variable {α β : Type} {Q : β → List PlatformOp → List PlatformOp → Prop} {d w : List PlatformOp}

theorem queries_getCurrentUser (caller : Uuid) : (Organizations.getCurrentUser caller).Queries := by
  refine (Prog.queries_query _).bind fun user => ?_
  cases user with
  | none => trivial
  | some u => dsimp only; split <;> trivial

theorem queries_authorize (permission : Permission) (caller orgId : Uuid) :
    (OrgRequest.authorize permission caller orgId).Queries := by
  refine (queries_getCurrentUser caller).bind fun user => (Prog.queries_query _).bind fun row => ?_
  cases row with
  | none => dsimp only; split <;> trivial
  | some r =>
    dsimp only
    split
    · trivial
    · split <;> trivial

theorem reads_authorize (permission : Permission) (caller orgId : Uuid) :
    (OrgRequest.authorize permission caller orgId).Reads
      fun _ _ => True := (queries_authorize _ _ _).reads

/-- The lifted program reads if the program does. -/
theorem reads_ofOrg {p : Org α} (h : p.Reads fun _ _ => True) : (ofOrg p).Reads fun _ _ => True := by
  induction p with
  | ret a => trivial
  | raise e => trivial
  | stmt f k ih =>
    intro lk db b ops hf
    dsimp only at hf
    cases hr : f (fun _ => false) db.orgs with
    | error e =>
      rw [hr] at hf
      cases hf
    | ok r =>
      rw [hr] at hf
      cases hf
      exact ⟨rfl, ih _ (h _ _ _ _ hr).2⟩
  | io f k ih => exact ⟨fun _ _ => trivial, fun x => ih x (h.2 x)⟩
  | assign o p ih => exact h.elim
  | flush p ih => exact h.elim

theorem getApi_writes {organizationId apiId : Uuid} {k : Api → Platform β}
    (h : ∀ api, (k api).Writes Q d w) :
    (ApiCatalogService.getApi organizationId apiId >>= k).Writes Q d w := by
  unfold ApiCatalogService.getApi ApiRepository.getInOrg
  simp only [Prog.bind_assoc']
  refine Prog.Writes.query fun api => ?_
  cases api with
  | none => exact Prog.Writes.raise
  | some api => exact h api

theorem getKey_writes {organizationId apiId keyId : Uuid} {k : ApiKey → Platform β}
    (h : ∀ key, (k key).Writes Q d w) :
    (ApiKeyService.getKey organizationId apiId keyId >>= k).Writes Q d w := by
  unfold ApiKeyService.getKey ApiKeyRepository.getInApi
  simp only [Prog.bind_assoc']
  refine getApi_writes fun api => Prog.Writes.query fun key => ?_
  cases key with
  | none => exact Prog.Writes.raise
  | some key => exact h key

theorem createKey_writes {cfg : Config} {organizationId apiId : Uuid} {name : String}
    {expiresInDays : Option Nat} {createdByUserId : Option Uuid} {k : ApiKey × String → Platform β}
    (h : ∀ issued, (k issued).Writes Q [] (w ++ [.addApiKey issued.1])) :
    (ApiKeyService.createKey cfg organizationId apiId name expiresInDays createdByUserId >>=
        k).Writes Q [] w := by
  have hadd : ∀ (expiresAt : Option Time) (generated : GeneratedApiKey), (uuid4 >>= fun id =>
      let record : ApiKey :=
        ⟨id, apiId, organizationId, name, generated.keyPrefix, generated.lastFour,
          generated.keyHash,
        createdByUserId, expiresAt, none, none⟩
      ApiKeyRepository.add record >>= fun _ => k (record, generated.fullKey)).Writes Q [] w := by
    intro expiresAt generated
    refine Prog.Writes.ask fun id => ?_
    unfold ApiKeyRepository.add
    simp only [Prog.bind_assoc']
    exact Prog.Writes.set (Prog.Writes.flushSession (h _))
  unfold ApiKeyService.createKey generateApiKey
  simp only [Prog.bind_assoc']
  refine getApi_writes fun api => Prog.Writes.ask fun publicId => Prog.Writes.ask fun secret => ?_
  cases expiresInDays with
  | none => exact hadd none _
  | some days =>
    simp only [Prog.pure_eq, Prog.ret_bind, Prog.bind_assoc']
    exact Prog.Writes.ask fun time => hadd (some (time + days * dayLength)) ⟨_, _, _, _⟩

theorem revokeKey_writes {organizationId apiId keyId : Uuid} {k : Unit → Platform β}
    (h : ∀ keyOps, (∀ o ∈ keyOps, o.OfKeys) → (k ()).Writes Q [] (w ++ keyOps)) :
    (ApiKeyService.revokeKey organizationId apiId keyId >>= k).Writes Q [] w := by
  unfold ApiKeyService.revokeKey
  simp only [Prog.bind_assoc']
  refine getKey_writes fun key => ?_
  split
  · simp only [Prog.bind_assoc']
    refine Prog.Writes.ask fun time => Prog.Writes.set (Prog.Writes.flushSession ?_)
    exact h _ (List.forall_mem_singleton.2 trivial)
  · refine Prog.Writes.flushSession (h [] fun o ho => ?_)
    cases ho

theorem rotateKey_writes {cfg : Config} {organizationId apiId keyId : Uuid} {gracePeriodHours : Nat}
    {createdByUserId : Option Uuid} {k : ApiKey × String → Platform β}
    (h : ∀ issued keyOps, (∀ o ∈ keyOps, o.OfKeys) → (k issued).Writes Q [] (w ++ keyOps)) :
    (ApiKeyService.rotateKey cfg organizationId apiId keyId gracePeriodHours createdByUserId >>=
        k).Writes Q [] w := by
  unfold ApiKeyService.rotateKey
  simp only [Prog.bind_assoc']
  refine getKey_writes fun old => ?_
  split
  · exact Prog.Writes.raise
  · simp only [Prog.bind_assoc']
    refine createKey_writes
      fun issued => Prog.Writes.ask fun time => Prog.Writes.set (Prog.Writes.flushSession ?_)
    rw [List.append_assoc]
    exact h issued _ (by simp [PlatformOp.OfKeys])

theorem auditRecord_writes {createdAt : Time} {action resourceType : String}
    {organizationId actorUserId resourceId : Option Uuid}
    {ip : Option String} {metadata : List (String × Uuid)} {k : Unit → Platform β}
    (h : ∀ (r : AuditLog) (outboxId : Uuid) (e : AuditLogEvent), e.trace = r.trace →
      (k ()).Writes Q
        (d ++ [.addAuditLog r, .addOutbox (OutboxEmitter.row outboxId createdAt (.auditLog e))])
          w) :
    (AuditLogService.record createdAt action resourceType organizationId actorUserId resourceId ip
        metadata >>= k).Writes Q d w := by
  unfold AuditLogService.record Gateway.OutboxEmitter.emit
  simp only [Prog.bind_assoc']
  refine Prog.Writes.ask
    fun id => Prog.Writes.set <| Prog.Writes.ask fun time => Prog.Writes.ask fun eventId => ?_
  refine Prog.Writes.ask fun outboxId => Prog.Writes.set ?_
  rw [List.append_assoc]
  exact h _ outboxId _ rfl

theorem apiKey_writes (cfg : Config) (request : ApiKeyRequest) :
    (request.prog cfg).Writes (fun _ d w => Audits (w ++ d)) [] [] := by
  have hrecord : ∀ (keyOps : List PlatformOp) (createdAt : Time) (answer : ApiKeyAnswer),
      (∀ o ∈ keyOps, o.OfKeys) →
      ∀ action resourceType organizationId actorUserId resourceId ip metadata,
      (AuditLogService.record createdAt action resourceType organizationId actorUserId resourceId ip
        metadata >>=
        fun _ => (pure answer : Platform ApiKeyAnswer)).Writes (fun _ d w => Audits (w ++ d))
            [] keyOps := by
    intro keyOps createdAt answer hkeys _ _ _ _ _ _ _
    exact auditRecord_writes
      fun r outboxId e he => Prog.Writes.ret ⟨keyOps, r, outboxId, createdAt, e, hkeys, he, rfl⟩
  have hauthorize :=
    fun permission caller orgId => reads_ofOrg (reads_authorize permission caller orgId)
  cases request with
  | createKey caller orgId apiId ip name expiresInDays =>
    refine Prog.Writes.ask
      fun createdAt => Prog.Writes.reads (hauthorize _ _ _)
        fun _ => createKey_writes fun issued => ?_
    exact hrecord [.addApiKey issued.1] _ _ (List.forall_mem_singleton.2 trivial) _ _ _ _ _ _ _
  | rotateKey caller orgId apiId keyId ip gracePeriodHours =>
    refine Prog.Writes.ask fun createdAt => Prog.Writes.reads (hauthorize _ _ _) fun _ => ?_
    exact rotateKey_writes fun issued keyOps hkeys => hrecord _ _ _ hkeys _ _ _ _ _ _ _
  | revokeKey caller orgId apiId keyId ip =>
    refine Prog.Writes.ask fun createdAt => Prog.Writes.reads (hauthorize _ _ _) fun _ => ?_
    exact revokeKey_writes fun keyOps hkeys => hrecord _ _ _ hkeys _ _ _ _ _ _ _

theorem getApi_checked (organizationId apiId : Uuid) :
    (ApiCatalogService.getApi organizationId apiId).Checked PlatformOp.OfRequest := by
  refine (Prog.checked_query _).bind fun api => ?_
  cases api <;> trivial

theorem getKey_checked (organizationId apiId keyId : Uuid) :
    (ApiKeyService.getKey organizationId apiId keyId).Checked PlatformOp.OfRequest := by
  refine (getApi_checked _ _).bind fun api => (Prog.checked_query _).bind fun key => ?_
  cases key <;> trivial

theorem createKey_checked (cfg : Config) (organizationId apiId : Uuid) (name : String)
    (expiresInDays : Option Nat) (createdByUserId : Option Uuid) :
    (ApiKeyService.createKey cfg organizationId apiId name expiresInDays createdByUserId).Checked
        PlatformOp.OfRequest := by
  have hadd : ∀ k, (ApiKeyRepository.add k).Checked PlatformOp.OfRequest := fun k => ⟨trivial, trivial⟩
  unfold ApiKeyService.createKey generateApiKey
  simp only [Prog.bind_assoc']
  refine (getApi_checked _ _).bind
    fun api => (Prog.checked_ask _).bind fun publicId => (Prog.checked_ask _).bind fun secret => ?_
  cases expiresInDays with
  | none => exact (Prog.checked_ask _).bind fun id => (hadd _).bind fun _ => trivial
  | some days =>
    simp only [Prog.pure_eq, Prog.ret_bind]
    exact (Prog.checked_ask _).bind
      fun time => (Prog.checked_ask _).bind fun id => (hadd _).bind fun _ => trivial

theorem revokeKey_checked (organizationId apiId keyId : Uuid) :
    (ApiKeyService.revokeKey organizationId apiId keyId).Checked PlatformOp.OfRequest := by
  refine (getKey_checked _ _ _).bind fun key => ?_
  dsimp only
  split
  · exact (Prog.checked_ask _).bind fun time => ⟨trivial, trivial⟩
  · trivial

theorem rotateKey_checked (cfg : Config) (organizationId apiId keyId : Uuid) (gracePeriodHours : Nat)
    (createdByUserId : Option Uuid) :
    (ApiKeyService.rotateKey cfg organizationId apiId keyId gracePeriodHours
        createdByUserId).Checked PlatformOp.OfRequest := by
  refine (getKey_checked _ _ _).bind fun old => ?_
  split
  · trivial
  · exact (createKey_checked _ _ _ _ _ _).bind
      fun issued => (Prog.checked_ask _).bind fun time => ⟨trivial, trivial⟩

theorem auditRecord_checked (createdAt : Time) (action resourceType : String)
    (organizationId actorUserId resourceId : Option Uuid) (ip : Option String)
    (metadata : List (String × Uuid)) :
    (AuditLogService.record createdAt action resourceType organizationId actorUserId resourceId ip
      metadata).Checked
      PlatformOp.OfRequest := by
  unfold AuditLogService.record Gateway.OutboxEmitter.emit
  refine (Prog.checked_ask _).bind
    fun id => (Prog.checked_set trivial).bind fun _ => (Prog.checked_ask _).bind fun time => ?_
  exact (Prog.checked_ask _).bind
    fun eventId => (Prog.checked_ask _).bind fun outboxId => Prog.checked_set trivial

theorem apiKey_checked (cfg : Config) (request : ApiKeyRequest) :
    (request.prog cfg).Checked PlatformOp.OfRequest := by
  have hauthorize : ∀ permission caller orgId,
      (ofOrg (OrgRequest.authorize permission caller orgId)).Checked PlatformOp.OfRequest :=
    fun permission caller orgId => (reads_ofOrg (reads_authorize permission caller orgId)).checked
  cases request with
  | createKey caller orgId apiId ip name expiresInDays =>
    refine (Prog.checked_ask _).bind fun createdAt => (hauthorize _ _ _).bind fun _ => ?_
    exact (createKey_checked _ _ _ _ _ _).bind
      fun issued => (auditRecord_checked _ _ _ _ _ _ _ _).bind fun _ => trivial
  | rotateKey caller orgId apiId keyId ip gracePeriodHours =>
    refine (Prog.checked_ask _).bind fun createdAt => (hauthorize _ _ _).bind fun _ => ?_
    exact (rotateKey_checked _ _ _ _ _ _).bind
      fun issued => (auditRecord_checked _ _ _ _ _ _ _ _).bind fun _ => trivial
  | revokeKey caller orgId apiId keyId ip =>
    refine (Prog.checked_ask _).bind fun createdAt => (hauthorize _ _ _).bind fun _ => ?_
    exact (revokeKey_checked _ _ _).bind
      fun _ => (auditRecord_checked _ _ _ _ _ _ _ _).bind fun _ => trivial

end

theorem platformReplay (cfg : GatewayConfig) :
    Replay (PlatformRequest.prog cfg) PlatformOp.OfRequest PlatformDb.Agree
        (fun r _ w => r.Writes w) where
  rows := platformRows
  checked r := by
    cases r with
    | gateway request => exact (proxy_checked cfg request).bind fun _ => trivial
    | apiKey request => exact (apiKey_checked cfg.toConfig request).bind fun _ => trivial
  writes r db := by
    cases r with
    | gateway request =>
      refine Prog.Safe.bind (fun _ _ => trivial) (by simp) ?_
      exact (proxy_writes cfg request db).mono fun response d w db h _ _ _ => h
    | apiKey request =>
      refine Prog.Safe.bind (fun _ _ => trivial) (by simp) ?_
      exact (apiKey_writes cfg.toConfig request db).mono fun answer d w db h _ _ _ => h

/-! ### What accepted writes do -/

section
variable {db : PlatformDb}

theorem RequestLog.fits_trace {r : RequestLog} (h : r.fits = true) : r.trace.fits = true := by
  unfold RequestLog.fits at h
  unfold RequestTrace.fits RequestLog.trace
  simp only [Bool.and_eq_true] at h ⊢
  obtain ⟨⟨⟨⟨⟨⟨hmethod, hpath⟩, -⟩, -⟩, -⟩, hclient⟩, hupstream⟩ := h
  exact ⟨⟨⟨hmethod, hpath⟩, hclient⟩, hupstream⟩

theorem rows_addAuditLog {r : AuditLog} (h : (PlatformOp.addAuditLog r).check db = .ok ()) :
    (db.addAuditLog r).auditLogs.rows = db.auditLogs.rows ++ [r.stored] :=
      Table.rows_insert (insertCheck_eq_ok.1 h).2

theorem applyAll_keyOps {w : List PlatformOp} (h : ∀ o ∈ w, o.OfKeys) :
    (applyAll platformTables.backend w db).requestLogs = db.requestLogs ∧
      (applyAll platformTables.backend w db).apiKeyUsage = db.apiKeyUsage ∧
      (applyAll platformTables.backend w db).auditLogs = db.auditLogs ∧
          (applyAll platformTables.backend w db).outbox = db.outbox := by
  refine applyAll_invariant (B := platformTables.backend)
    (P := fun db' => db'.requestLogs = db.requestLogs ∧
    db'.apiKeyUsage = db.apiKeyUsage ∧ db'.auditLogs = db.auditLogs ∧
      db'.outbox = db.outbox) ?_ ⟨rfl, rfl, rfl, rfl⟩
  intro o ho db' hdb'
  have hkeys := h o ho
  cases o with
  | addApiKey k =>
    simp only [PlatformOp.apply, PlatformDb.addApiKey]
    split <;> exact hdb'
  | changeApiKey id c => exact hdb'
  | _ => exact hkeys.elim

theorem tables_audits {keyOps : List PlatformOp} {r : AuditLog} {o : TelemetryOutbox}
    (hkeys : ∀ o ∈ keyOps, o.OfKeys)
    (h : Accepted platformTables.backend PlatformOp.OfRequest
      (keyOps ++ [.addAuditLog r, .addOutbox o]) db) :
    let db' : PlatformDb :=
      applyAll platformTables.backend (keyOps ++ [.addAuditLog r, .addOutbox o]) db
    r.fits = true ∧ db'.requestLogs = db.requestLogs ∧ db'.apiKeyUsage = db.apiKeyUsage ∧
      db'.auditLogs.rows = db.auditLogs.rows ++ [r.stored] ∧
          db'.outbox.rows = db.outbox.rows ++ [o] := by
  rw [accepted_append] at h
  obtain ⟨-, -, haudit, -, houtbox, -⟩ := h
  obtain ⟨hlogs, husage, haudits, hevents⟩ := @applyAll_keyOps db _ hkeys
  rw [applyAll_append]
  refine ⟨(insertCheck_eq_ok.1 haudit).1, hlogs, husage, (rows_addAuditLog haudit).trans ?_,
    (rows_addOutbox houtbox).trans ?_⟩
  · rw [haudits]
  · exact congrArg (fun t : Table TelemetryOutbox => t.rows ++ [o]) hevents

namespace PlatformDb

variable {db' : PlatformDb}

theorem requestEvents_append {o : TelemetryOutbox} (h : db'.outbox.rows = db.outbox.rows ++ [o]) :
    db'.requestEvents = db.requestEvents ++ o.payload.requestLog?.toList := by
  unfold requestEvents
  rw [h, List.filterMap_append]
  cases hp : o.payload <;> simp [hp, TelemetryEvent.requestLog?]

theorem auditEvents_append {o : TelemetryOutbox} (h : db'.outbox.rows = db.outbox.rows ++ [o]) :
    db'.auditEvents = db.auditEvents ++ o.payload.auditLog?.toList := by
  unfold auditEvents
  rw [h, List.filterMap_append]
  cases hp : o.payload <;> simp [hp, TelemetryEvent.auditLog?]

theorem logsOf_append {r : RequestLog} {k : Uuid}
    (h : db'.requestLogs.rows = db.requestLogs.rows ++ [r]) :
    db'.logsOf k = db.logsOf k ++ if r.apiKeyId == some k then [r] else [] := by
  unfold logsOf Table.select
  rw [h, List.filter_append, List.filter_cons, List.filter_nil]

theorem DualWritten.audits {w : List PlatformOp} (h : db.DualWritten) (hw : Audits w)
    (ha : Accepted platformTables.backend PlatformOp.OfRequest w db) :
    DualWritten (applyAll platformTables.backend w db) := by
  obtain ⟨keyOps, r, outboxId, createdAt, e, hkeys, he, rfl⟩ := hw
  obtain ⟨hfits, hlogs, husage, haudits, houtbox⟩ := tables_audits hkeys ha
  have hrequestEvents := requestEvents_append houtbox
  have hauditEvents := auditEvents_append houtbox
  refine ⟨?_, ?_, ?_, ?_, fun k => ?_, fun k => ?_⟩
  · rw [hlogs, hrequestEvents]
    exact (List.append_nil db.requestEvents).symm ▸ h.requestLogs
  · rw [hrequestEvents]
    exact (List.append_nil db.requestEvents).symm ▸ h.requestTexts
  · rw [haudits, hauditEvents, List.map_append, List.map_append]
    refine h.auditLogs.append ?_
    show [r.trace.stored].Perm [e.trace.stored]
    rw [he]
  · rw [hauditEvents]
    refine List.forall_mem_append.2 ⟨h.auditTexts, List.forall_mem_singleton.2 ?_⟩
    rw [he]
    exact hfits
  · unfold totalRequests logsOf
    rw [husage, hlogs]
    exact h.requestCount k
  · unfold totalErrors logsOf
    rw [husage, hlogs]
    exact h.errorCount k

theorem DualWritten.traces {w : List PlatformOp} (h : db.DualWritten) (hw : Traces w)
    (ha : Accepted platformTables.backend PlatformOp.OfRequest w db) :
    DualWritten (applyAll platformTables.backend w db) := by
  obtain ⟨outcome, createdAt, id, usageId, outboxId, eventId, rfl⟩ := hw
  obtain ⟨hcheck, hfits, husage, hlogs, haudits, houtbox⟩ := tables_traces ha
  have hrequestEvents := requestEvents_append houtbox
  have hauditEvents := auditEvents_append houtbox
  have hsum : ∀ k g c, g (outcome.increment usageId).row = c →
      (∀ u, g ((outcome.increment usageId).add u) = g u + c) →
      (((db.incrementUsage (outcome.increment usageId)).apiKeyUsage.select
        fun u => u.apiKeyId == k).map g).sum =
        ((db.apiKeyUsage.select fun u => u.apiKeyId == k).map g).sum +
            if outcome.apiKeyId == k then c else 0 := by
    intro k g c hrow hadd
    refine sum_incrementUsage hcheck (fun _ => rfl) (fun u hu => ?_) hrow hadd
    rw [(UsageIncrement.isFor_iff.1 hu).1]
    rfl
  refine ⟨?_, ?_, ?_, ?_, fun k => ?_, fun k => ?_⟩
  · rw [hlogs, hrequestEvents, List.map_append, List.map_append]
    exact h.requestLogs.append (.refl _)
  · rw [hrequestEvents]
    refine List.forall_mem_append.2 ⟨h.requestTexts, fun e he => ?_⟩
    have htrace : e.trace = (outcome.row id createdAt).trace := by
      rw [List.mem_singleton.1 he]
      rfl
    rw [htrace, RequestLog.fits_trace hfits]
  · rw [haudits, hauditEvents]
    exact (List.append_nil db.auditEvents).symm ▸ h.auditLogs
  · rw [hauditEvents]
    exact (List.append_nil db.auditEvents).symm ▸ h.auditTexts
  · have hcount := h.requestCount k
    unfold totalRequests at hcount ⊢
    rw [husage, hsum k (·.requestCount) 1 rfl fun _ => rfl, hcount, logsOf_append hlogs,
      List.length_append]
    show _ = _ + (if outcome.apiKeyId == k then [_] else []).length
    cases outcome.apiKeyId == k <;> rfl
  · have hcount := h.errorCount k
    unfold totalErrors at hcount ⊢
    rw [husage, hsum k (·.errorCount) (if outcome.isError then 1 else 0) rfl
      fun _ => rfl, hcount, logsOf_append hlogs,
      List.countP_append]
    show _ = _ + (if outcome.apiKeyId == k then [_] else []).countP _
    cases outcome.apiKeyId == k
    · rfl
    · exact congrArg (_ + ·) (List.countP_singleton ..).symm

end PlatformDb

end

/-- The dual writes stay consistent in every committed state of every interleaving of gateway and
key management requests. -/
theorem dual_write_consistency (cfg : GatewayConfig) (db : PlatformDb) (world : World PlatformOutside)
    (es : List PlatformEvent) (h : db.DualWritten) :
    Always (platformNext cfg) (fun s => s.db.DualWritten) (System.init db world) es := by
  refine (platformReplay cfg).always (fun r a w db hw ha hdb => ?_)
    (System.init_quiet _ _).replayable h es
  cases r with
  | gateway request => exact hdb.traces hw ha
  | apiKey request => exact hdb.audits hw ha

/-- A path that is one space longer than its column. -/
def padded (n : Nat) : String := .ofList (List.replicate n 'x' ++ [' '])

/-- The request and its outcome, with another path. -/
def sampleRequestOf (path : String) : HttpRequest := { sampleRequest with upstreamPath := path }

def sampleOutcomeOf (path : String) : GatewayOutcome := { sampleOutcome "10.0.0.1" with path := path }

/-- The logs equal their events, as the events have them. -/
def PlatformDb.SameTraces (db : PlatformDb) : Prop :=
  (db.requestLogs.rows.map (·.trace)).Perm (db.requestEvents.map (·.trace)) ∧
    (db.auditLogs.rows.map (·.trace)).Perm (db.auditEvents.map (·.trace))

theorem fits_padded (n : Nat) : fitsVarchar n (padded n) = true := by
  have hnul : hasNul (padded n) = false := by
    rw [hasNul, padded, String.toList_ofList, ← Bool.not_eq_true, List.contains_iff_mem]
    intro hmem
    rcases List.mem_append.1 hmem with hmem | hmem
    · exact absurd (List.eq_of_mem_replicate hmem) (by decide)
    · exact absurd (List.mem_singleton.1 hmem) (by decide)
  rw [fitsVarchar, hnul, padded, String.toList_ofList, List.drop_left' List.length_replicate]
  rfl

theorem varchar_padded (n : Nat) : varchar n (padded n) ≠ padded n := by
  intro h
  have hlength := congrArg (fun s => s.toList.length) h
  simp [varchar, padded] at hlength

theorem handle_padded : ((handle sampleGatewayConfig (incomingRequest (sampleRequestOf (padded 2048)))
    (extractApiKey (sampleRequestOf (padded 2048)))).eval (begun sampleGatewayState
      fun _ => sampleGatewayEnv 1)).1 =
      .ok (sampleOutcomeOf (padded 2048)) := by
  -- the kernel evaluates all fields but the path, which comes from the request
  have hfields : (match ((handle sampleGatewayConfig (incomingRequest (sampleRequestOf (padded 2048)))
      (extractApiKey (sampleRequestOf (padded 2048)))).eval (begun sampleGatewayState
          fun _ => sampleGatewayEnv 1)).1 with
      | .ok outcome => some { outcome with path := "" }
      | .error _ => none) = some (sampleOutcome "10.0.0.1") := by decide +kernel
  have hfrom := handle_fromRequest sampleGatewayConfig (incomingRequest (sampleRequestOf (padded 2048)))
    (extractApiKey (sampleRequestOf (padded 2048)))
      (begun sampleGatewayState fun _ => sampleGatewayEnv 1)
  split at hfields
  · rename_i outcome h
    have hpath : outcome.path = padded 2048 := (hfrom.of_ok (Prod.ext h rfl)).1.path
    rw [h, sampleOutcomeOf, ← Option.some.inj hfields, ← hpath]
  · cases hfields

theorem PlatformDb.not_sameTraces {db : PlatformDb} {r : RequestLog} {o : TelemetryOutbox}
    {e : RequestLogEvent} (path : String) (hlogs : db.requestLogs = .empty)
    (houtbox : db.outbox = .empty) (ho : o.payload = .requestLog e) (hr : r.path = path)
    (he : e.path = path) (hpath : varchar 2048 path ≠ path) :
        ¬ ((db.addRequestLog r).addOutbox o).SameTraces := by
  rintro ⟨hsame, -⟩
  unfold requestEvents addOutbox addRequestLog at hsame
  simp only [hlogs, houtbox] at hsame
  have hrows : (Table.insert (Table.empty : Table TelemetryOutbox) o).rows = [o] := rfl
  have hevents : [o].filterMap (fun r => r.payload.requestLog?) = [e] :=
    List.filterMap_cons_some (congrArg TelemetryEvent.requestLog? ho)
  rw [hrows, hevents] at hsame
  have hcut : varchar 2048 r.path = e.path :=
    congrArg RequestTrace.path (List.singleton_perm_singleton.1 hsame)
  rw [hr, he] at hcut
  exact hpath hcut

theorem run_gateway (cfg : GatewayConfig) (request : HttpRequest) (envs : Nat → Env PlatformInput)
    (st : State platformTables.backend) :
    ∃ es : List PlatformEvent, (run (platformNext cfg) (System.init st.db st.world) es).db =
        (scope (proxy cfg request) envs st).2.db := by
  obtain ⟨es, hdb⟩ : ∃ es : List PlatformEvent,
      (run (platformNext cfg) (System.init st.db st.world) (.start (.gateway request) :: es)).db =
        (scope (PlatformRequest.prog cfg (.gateway request)) envs st).2.db :=
    (System.serial_scope (System.init_quiet st.db st.world) (PlatformRequest.gateway request)
      envs).imp fun _ h => h.1
  have hscope : (scope (PlatformRequest.prog cfg (.gateway request)) envs st).2 =
      (scope (proxy cfg request) envs st).2 :=
    congrArg Prod.snd (Prog.scope_map PlatformAnswer.gateway _ _ _)
  exact ⟨_, hdb.trans (congrArg (fun s => s.db) hscope)⟩

/-- The run of a request whose path its column cuts. -/
theorem not_sameTraces_run {path : String} (hfits : fitsVarchar 2048 path = true)
    (hcut : varchar 2048 path ≠ path)
    (hhandle : ((handle sampleGatewayConfig (incomingRequest (sampleRequestOf path))
      (extractApiKey (sampleRequestOf path))).eval
      (begun sampleGatewayState fun _ => sampleGatewayEnv 1)).1 = .ok (sampleOutcomeOf path)) :
        ∃ es : List PlatformEvent,
      ¬ (run (platformNext sampleGatewayConfig)
          (System.init sampleGatewayState.db sampleGatewayState.world) es).db.SameTraces := by
  obtain ⟨id, usageId, outboxId, eventId, -, husage, -, hout⟩ :=
    scope_proxy hhandle sampleDailyDb_idsBelow
  have hrow : ((sampleOutcomeOf path).row id
      (max sampleGatewayState.world.clock (sampleGatewayEnv 1).time)).fits = true := by
    unfold RequestLog.fits GatewayOutcome.row sampleOutcomeOf
    dsimp only
    rw [hfits]
    decide +kernel
  have hincrement : (PlatformOp.incrementUsage ((sampleOutcomeOf path).increment usageId)).check
      sampleGatewayState.db = .ok () :=
    (check_increment rfl husage).2 ⟨rfl, rfl⟩
  have hresponse : (response (sampleOutcomeOf path)).isSome = true := by
    rw [response_isSome]
    rfl
  rw [if_pos ⟨hincrement, hrow, hresponse⟩] at hout
  obtain ⟨es, hdb⟩ :=
    run_gateway sampleGatewayConfig (sampleRequestOf path) (fun _ => sampleGatewayEnv 1)
      sampleGatewayState
  refine ⟨es, fun hsame => ?_⟩
  rw [hdb.trans hout.2] at hsame
  exact PlatformDb.not_sameTraces path (PlatformDb.incrementUsage_requestLogs _ _)
    (PlatformDb.incrementUsage_outbox _ _)
    rfl rfl rfl hcut hsame

/-- The log of a path that ends with a space behind the width of its column has lost the space, and
its event has not. -/
theorem dual_write_not_same : ¬ ∀ (cfg : GatewayConfig) (db : PlatformDb)
    (world : World PlatformOutside) (es : List PlatformEvent),
    db.SameTraces → Always (platformNext cfg) (fun s => s.db.SameTraces) (System.init db world) es := by
  intro h
  obtain ⟨es, hno⟩ := not_sameTraces_run (fits_padded 2048) (varchar_padded 2048) handle_padded
  exact hno (Kit.always_iff.1
    (h sampleGatewayConfig sampleGatewayState.db sampleGatewayState.world es ⟨.refl _, .refl _⟩) es
      []
    (List.append_nil es).symm)

/-- A request with a key, and a rotation of the key while the request is on its way. -/
def rotationRace : List PlatformEvent :=
  [.start (.gateway sampleRequest), .start (.apiKey (.rotateKey 1 5 41 43 "10.0.0.2" 24))] ++
  List.replicate 7 (.step 0 (sampleGatewayEnv 1)) ++ List.replicate 40 (.step 1 (sampleGatewayEnv 2)) ++
  List.replicate 40 (.step 0 (sampleGatewayEnv 3))

theorem sampleDailyDb_dualWritten : sampleDailyDb.DualWritten :=
  ⟨.refl _, List.forall_mem_nil _, .refl _, List.forall_mem_nil _, fun _ => rfl, fun _ => rfl⟩

theorem dual_write_consistency_race : sampleDailyDb.DualWritten ∧
    Always (platformNext sampleGatewayConfig) (fun s => s.db.DualWritten)
      (System.init sampleDailyDb sampleGatewayWorld)
      rotationRace :=
  ⟨sampleDailyDb_dualWritten,
    dual_write_consistency sampleGatewayConfig _ _ rotationRace sampleDailyDb_dualWritten⟩

end TrafficPlatform
