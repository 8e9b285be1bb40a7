import TrafficPlatform.DualWrite
import TrafficPlatform.Management.Writes

/-!
# The logs tell the history

Every request to the gateway or to the key management that commits leaves one entry in its log, in
the order in which the transactions commit; a request that fails or is cut off leaves none. The
entry of a gateway request names the key that the request presented, with its API and organization,
and says what was asked and answered; the entry of a key request names the caller, who had the
permission, and what was done (`logs_tell_history`).
-/

namespace TrafficPlatform
open Kit Gateway GatewayService ApiKeys

/-! ### What an entry says -/

/-- The entry `row` of a gateway request: the columns cut off nothing of its texts but spaces. -/
structure LogEntry (cfg : GatewayConfig) (db : PlatformDb) (request : HttpRequest)
    (response : HttpResponse) (row : RequestLog) : Prop where
  method : row.method = varchar 10 request.method
  path : row.path = varchar 2048 request.upstreamPath
  clientIp : row.clientIp = varchar 64 (clientIp request)
  texts : (fitsVarchar 10 request.method && fitsVarchar 2048 request.upstreamPath && fitsVarchar 64
    (Gateway.clientIp request)) = true
  requestBytes : row.requestBytes = request.body.length
  statusCode : row.statusCode = response.statusCode
  responseBytes : row.responseBytes = response.body.length
  key : ∃ raw, extractApiKey request = some raw ∧ ∃ k ∈ db.apiKeys.rows, k.keyHash = cfg.hashToken raw ∧
    row.apiKeyId = some k.id ∧ row.apiId = k.apiId ∧ row.organizationId = k.organizationId

namespace ApiKeyRequest

def orgId : ApiKeyRequest → Uuid
  | createKey _ orgId _ _ _ _ => orgId
  | rotateKey _ orgId _ _ _ _ => orgId
  | revokeKey _ orgId _ _ _ => orgId

/-- The permission that the route requires. -/
def permission : ApiKeyRequest → Permission
  | createKey _ _ _ _ _ _ => .keyCreate
  | rotateKey _ _ _ _ _ _ => .keyRotate
  | revokeKey _ _ _ _ _ => .keyRevoke

/-- What the audit log is to say about the request and its answer. -/
def audit : ApiKeyRequest → ApiKeyAnswer → Option AuditTrace
  | createKey caller orgId apiId ip _ _, .created key _ =>
    some ⟨some orgId, some caller, "api_key.create", "api_key", some key.id, some ip,
      [("api_id", apiId)]⟩
  | rotateKey caller orgId _ keyId ip _, .created key _ =>
    some ⟨some orgId, some caller, "api_key.rotate", "api_key", some keyId, some ip,
      [("new_key_id", key.id)]⟩
  | revokeKey caller orgId _ keyId ip, .noContent =>
    some ⟨some orgId, some caller, "api_key.revoke", "api_key", some keyId, some ip, []⟩
  | _, _ => none

end ApiKeyRequest

/-- The entry `row` of a key request. -/
structure AuditEntry (db : PlatformDb) (request : ApiKeyRequest) (answer : ApiKeyAnswer)
    (row : AuditLog) : Prop where
  trace : ∃ t, request.audit answer = some t ∧ t.fits = true ∧ row.trace = t.stored
  permits : db.orgs.Permits request.orgId request.caller request.permission

/-- The gateway requests of a history of commits. -/
def gatewayCalls (history : List (PlatformRequest × PlatformAnswer)) :
    List (HttpRequest × HttpResponse) :=
  history.filterMap fun e => match e with
    | (.gateway request, .gateway response) => some (request, response)
    | _ => none

/-- The key requests of a history of commits. -/
def keyCalls (history : List (PlatformRequest × PlatformAnswer)) :
    List (ApiKeyRequest × ApiKeyAnswer) :=
  history.filterMap fun e => match e with
    | (.apiKey request, .apiKey answer) => some (request, answer)
    | _ => none

/-- The logs that were added since `db₀` tell the history, entry by entry. -/
structure TellHistory (cfg : GatewayConfig) (db₀ : PlatformDb) (s : PlatformSystem) : Prop where
  requestLogs : ∃ rows, s.db.requestLogs.rows = db₀.requestLogs.rows ++ rows ∧
    List.Forall₂ (fun e row => LogEntry cfg s.db e.1 e.2 row) (gatewayCalls s.history) rows
  auditLogs : ∃ rows, s.db.auditLogs.rows = db₀.auditLogs.rows ++ rows ∧
    List.Forall₂ (fun e row => AuditEntry s.db e.1 e.2 row) (keyCalls s.history) rows

/-! ### What the requests rely on -/

/-- The organizations stay, and a key stays with its hash, its API and its organization. -/
structure PlatformDb.KeepsKeys (db db' : PlatformDb) : Prop where
  orgs : db'.orgs = db.orgs
  keys : ∀ k ∈ db.apiKeys.rows, ∃ k' ∈ db'.apiKeys.rows,
    k'.id = k.id ∧ k'.keyHash = k.keyHash ∧ k'.apiId = k.apiId ∧ k'.organizationId = k.organizationId

theorem PlatformDb.mem_changeApiKey {db : PlatformDb} {id : Uuid} {c : ApiKeyChange} {k : ApiKey}
    (hk : k ∈ db.apiKeys.rows) :
    (if k.id == id then k.changed c else k) ∈ (db.changeApiKey id c).apiKeys.rows := by
  rw [apiKeys_changeApiKey]
  exact Table.mem_update_of_mem hk

namespace PlatformDb.KeepsKeys

variable {db db' db'' : PlatformDb}

theorem refl (db : PlatformDb) : db.KeepsKeys db := ⟨rfl, fun k hk => ⟨k, hk, rfl, rfl, rfl, rfl⟩⟩

theorem trans (h : db.KeepsKeys db') (h' : db'.KeepsKeys db'') : db.KeepsKeys db'' := by
  refine ⟨h'.orgs.trans h.orgs, fun k hk => ?_⟩
  obtain ⟨k', hk', hid, hhash, hapi, horg⟩ := h.keys k hk
  obtain ⟨k'', hk'', hid', hhash', hapi', horg'⟩ := h'.keys k' hk'
  exact ⟨k'', hk'', hid'.trans hid, hhash'.trans hhash, hapi'.trans hapi, horg'.trans horg⟩

theorem addApiKey (k : ApiKey) (db : PlatformDb) : db.KeepsKeys (db.addApiKey k) := by
  unfold PlatformDb.addApiKey
  split
  · exact ⟨rfl, fun k' hk' => ⟨k', Table.mem_insert_of_mem hk', rfl, rfl, rfl, rfl⟩⟩
  · exact refl db

theorem changeApiKey (id : Uuid) (c : ApiKeyChange) (db : PlatformDb) :
    db.KeepsKeys (db.changeApiKey id c) := by
  refine ⟨rfl, fun k hk => ⟨_, mem_changeApiKey hk, ?_⟩⟩
  split <;> exact ⟨rfl, rfl, rfl, rfl⟩

theorem apply (o : PlatformOp) (db : PlatformDb) : db.KeepsKeys (o.apply db) := by
  cases o with
  | addApiKey k => exact addApiKey k db
  | changeApiKey id c => exact changeApiKey id c db
  | incrementUsage i =>
    refine ⟨db.incrementUsage_orgs i, fun k hk => ⟨k, ?_, rfl, rfl, rfl, rfl⟩⟩
    show k ∈ (db.incrementUsage i).apiKeys.rows
    rwa [PlatformDb.incrementUsage_apiKeys]
  | _ => exact ⟨rfl, fun k hk => ⟨k, hk, rfl, rfl, rfl, rfl⟩⟩

theorem applyAll (w : List PlatformOp) (db : PlatformDb) :
    db.KeepsKeys (applyAll platformTables.backend w db) :=
  applyAll_invariant (B := platformTables.backend) (P := db.KeepsKeys)
    (fun o _ db' h => h.trans (apply o db')) (refl db)

end PlatformDb.KeepsKeys

theorem LogEntry.mono {cfg : GatewayConfig} {db db' : PlatformDb} {request : HttpRequest}
    {response : HttpResponse} {row : RequestLog} (h : LogEntry cfg db request response row)
    (hdb : db.KeepsKeys db') :
        LogEntry cfg db' request response row := by
  obtain ⟨raw, hraw, k, hk, hhash, hid, hapi, horg⟩ := h.key
  obtain ⟨k', hk', hid', hhash', hapi', horg'⟩ := hdb.keys k hk
  exact { h with
    key := ⟨raw, hraw, k', hk', hhash'.trans hhash,
      by rw [hid, hid'], hapi.trans hapi'.symm, horg.trans horg'.symm⟩ }

theorem AuditEntry.mono {db db' : PlatformDb} {request : ApiKeyRequest} {answer : ApiKeyAnswer}
    {row : AuditLog} (h : AuditEntry db request answer row) (hdb : db.KeepsKeys db') :
        AuditEntry db' request answer row :=
  ⟨h.trace, hdb.orgs ▸ h.permits⟩

/-! ### The gateway -/

section
variable {cfg : GatewayConfig} {db : PlatformDb} {request : HttpRequest}

/-- Whatever is answered with the outcome, its entry says so. -/
def GatewayOutcome.Tells (cfg : GatewayConfig) (db : PlatformDb) (request : HttpRequest)
    (o : GatewayOutcome) : Prop :=
  ∀ id createdAt resp, Gateway.response o = some resp → (o.row id createdAt).fits = true →
    LogEntry cfg db request resp (o.row id createdAt).stored

theorem starletteResponse_some {content : Bytes} {statusCode : Nat} {headers : HeaderLines}
    {resp : HttpResponse}
    (h : starletteResponse content statusCode headers = some resp) : resp.statusCode = statusCode ∧
        resp.body = content := by
  unfold starletteResponse at h
  dsimp only at h
  split at h
  · cases h
    exact ⟨rfl, rfl⟩
  · cases h

theorem response_some {o : GatewayOutcome} {resp : HttpResponse} (h : Gateway.response o = some resp) :
    resp.statusCode = o.statusCode ∧ resp.body = o.response.content := starletteResponse_some h

abbrev PlatformSafe {β : Type} (p : Platform β)
    (Q : β → List PlatformOp → List PlatformOp → PlatformDb → Prop) (d w : List PlatformOp)
    (db : PlatformDb) : Prop := p.Safe (fun _ => PlatformDb.KeepsKeys) (fun _ _ => True) Q d w db

variable {β : Type} {Q : β → List PlatformOp → List PlatformOp → PlatformDb → Prop}
    {d w : List PlatformOp}

theorem authenticate_safe {presentedKey : Option String} {k : ApiKey × Api → Platform β}
    (h : ∀ raw key api db', db.KeepsKeys db' → presentedKey = some raw → key ∈ db'.apiKeys.rows →
      key.keyHash = cfg.hashToken raw →
      api.id = key.apiId → PlatformSafe (k (key, api)) Q [] [] db') :
    PlatformSafe (GatewayService.authenticate cfg presentedKey >>= k) Q [] [] db := by
  unfold GatewayService.authenticate
  cases hfilter : presentedKey.filter fun raw => raw != "" with
  | none => trivial
  | some raw =>
    have hraw : presentedKey = some raw := (Option.filter_eq_some_iff.1 hfilter).1
    simp only [Gateway.ApiKeyRepository.getByHash, Prog.bind_assoc']
    refine Prog.Safe.query_nil fun db₁ h₁ => ?_
    cases hkey : db₁.apiKeys.one fun k => k.keyHash == cfg.hashToken raw with
    | none => trivial
    | some key =>
      cases hapi : db₁.apis.one fun a => a.id == key.apiId with
      | none => simp only [Option.bind_some, hapi, Option.map_none]; trivial
      | some api =>
        simp only [Option.bind_some, hapi, Option.map_some, Prog.bind_assoc']
        refine Prog.Safe.ask (fun _ _ _ h h' => h.trans h') fun time => ?_
        split
        · trivial
        · split
          · trivial
          · exact h raw key api db₁ h₁ hraw (Table.mem_of_one hkey)
              (by simpa using Table.pred_of_one hkey)
              (by simpa using Table.pred_of_one hapi)

theorem handle_safe {k : GatewayOutcome → Platform β}
    (h : ∀ o db', db.KeepsKeys db' → o.Tells cfg db' request → PlatformSafe (k o) Q [] [] db') :
    PlatformSafe (handle cfg (incomingRequest request) (extractApiKey request) >>= k) Q [] [] db := by
  have hrefl := PlatformDb.KeepsKeys.refl
  have htrans : ∀ a b c : PlatformDb, a.KeepsKeys b → b.KeepsKeys c → a.KeepsKeys c :=
    fun _ _ _ h h' => h.trans h'
  unfold handle resolve
  simp only [Prog.bind_assoc']
  refine authenticate_safe fun raw key api db₁ h₁ hraw hkey hhash hapi => ?_
  dsimp only
  split
  · trivial
  simp only [ApiVersionRepository.getActive, Prog.bind_assoc']
  refine Prog.Safe.query_nil fun db₂ h₂ => ?_
  split
  · trivial
  rename_i version _
  simp only [Prog.pure_eq, Prog.ret_bind]
  refine Prog.Safe.reads hrefl htrans (reads_enforceRateLimit _ _) fun rateInfo db₃ h₃ => ?_
  have hquota : (enforceQuota api.id key.id).Reads Counting :=
    ((reads_listForApi _).mono fun _ _ h => h.1).bind fun _ => reads_consumeEach _ _ _
  refine Prog.Safe.reads hrefl htrans hquota fun consumed db₄ h₄ => ?_
  simp only [forward, Prog.bind_assoc']
  refine Prog.Safe.ask htrans fun start => Prog.Safe.ask htrans fun upstream => ?_
  cases upstream with
  | error e =>
    simp only [Prog.pure_eq, Prog.ret_bind]
    split
    · simp only [Prog.bind_assoc']
      exact Prog.Safe.reads hrefl htrans (reads_rollbackQuota _ _) fun _ _ _ => trivial
    · trivial
  | ok upstream =>
  simp only [Prog.bind_assoc']
  refine Prog.Safe.ask htrans fun stop => ?_
  simp only [Prog.pure_eq, Prog.ret_bind, Prog.bind_assoc']
  refine Prog.Safe.ask htrans fun timestamp => ?_
  refine h _ db₄ (((h₁.trans h₂).trans h₃).trans h₄) fun id createdAt resp hresp hfits => ?_
  obtain ⟨hstatus, hbody⟩ := response_some hresp
  obtain ⟨key', hkey', hid, hhash', hapi', horg⟩ := ((h₂.trans h₃).trans h₄).keys key hkey
  have htexts := RequestLog.fits_trace hfits
  unfold RequestTrace.fits at htexts
  refine ⟨rfl, rfl, rfl, (Bool.and_eq_true_iff.1 htexts).1, rfl, hstatus.symm,
    by rw [hbody]; rfl, raw, hraw, key', hkey', hhash'.trans hhash, ?_, ?_, horg.symm⟩
  · rw [hid]; rfl
  · exact hapi.trans hapi'.symm

end

/-! ### What the requests write -/

/-- The writes of an answered request: its entry is among them. -/
def PlatformRequest.Tells (cfg : GatewayConfig) : PlatformRequest → PlatformAnswer →
    List PlatformOp → PlatformDb → Prop
  | gateway request, .gateway response, w, db =>
    ∃ (i : UsageIncrement) (row : RequestLog) (event : TelemetryOutbox),
    w = [.incrementUsage i, .addRequestLog row, .addOutbox event] ∧
      (row.fits = true → LogEntry cfg db request response row.stored)
  | apiKey request, .apiKey answer, w, db =>
    ∃ (keyOps : List PlatformOp) (row : AuditLog) (event : TelemetryOutbox),
    (∀ o ∈ keyOps, o.OfKeys) ∧ w = keyOps ++ [.addAuditLog row, .addOutbox event] ∧
      request.audit answer = some row.trace ∧
        db.orgs.Permits request.orgId request.caller request.permission
  | _, _, _, _ => False

section
variable {cfg : GatewayConfig} {db : PlatformDb}

theorem proxy_tells (cfg : GatewayConfig) (request : HttpRequest) (db : PlatformDb) :
    PlatformSafe (PlatformRequest.prog cfg (.gateway request))
      (fun a d w db => PlatformRequest.Tells cfg (.gateway request) a (w ++ d) db)
      [] [] db := by
  have htrans : ∀ a b c : PlatformDb, a.KeepsKeys b → b.KeepsKeys c → a.KeepsKeys c :=
    fun _ _ _ h h' => h.trans h'
  simp only [PlatformRequest.prog, proxy, Prog.bind_assoc']
  refine Prog.Safe.ask htrans fun createdAt => handle_safe fun o db₁ _ htells => ?_
  rw [record_eq]
  simp only [Prog.bind_assoc']
  refine Prog.Safe.ask htrans fun id => Prog.Safe.set htrans <| Prog.Safe.ask htrans fun usageId => ?_
  refine Prog.Safe.execute fun db₂ h₂ _ _ => ⟨trivial, ?_⟩
  refine Prog.Safe.ask htrans
    fun eventId => Prog.Safe.ask htrans fun outboxId => Prog.Safe.set htrans ?_
  cases hresp : Gateway.response o with
  | none => trivial
  | some resp => exact fun db₃ h₃ _ =>
    ⟨_, _, _, rfl, fun hfits => (htells id createdAt resp hresp hfits).mono (h₂.trans h₃)⟩

section
variable {β : Type} {Q : β → List PlatformOp → List PlatformOp → Prop} {d w : List PlatformOp}

theorem auditRecord_tells {createdAt : Time} {action resourceType : String}
    {organizationId actorUserId resourceId : Option Uuid}
    {ip : Option String} {metadata : List (String × Uuid)} {k : Unit → Platform β}
    (h : ∀ (row : AuditLog) (event : TelemetryOutbox),
      row.trace = ⟨organizationId, actorUserId, action, resourceType, resourceId, ip, metadata⟩ →
      (k ()).Writes Q (d ++ [.addAuditLog row, .addOutbox event]) w) :
    (AuditLogService.record createdAt action resourceType organizationId actorUserId resourceId ip
        metadata >>= k).Writes Q d w := by
  unfold AuditLogService.record Gateway.OutboxEmitter.emit
  simp only [Prog.bind_assoc']
  refine Prog.Writes.ask
    fun id => Prog.Writes.set <| Prog.Writes.ask fun time => Prog.Writes.ask fun eventId => ?_
  refine Prog.Writes.ask fun outboxId => Prog.Writes.set ?_
  rw [List.append_assoc]
  exact h _ _ rfl

end

theorem apiKey_tells (cfg : Config) (request : ApiKeyRequest) :
    (request.prog cfg).Writes (fun answer d w =>
    ∃ (keyOps : List PlatformOp) (row : AuditLog) (event : TelemetryOutbox), (∀ o ∈ keyOps, o.OfKeys) ∧
      w ++ d = keyOps ++ [.addAuditLog row, .addOutbox event] ∧
          request.audit answer = some row.trace) [] [] := by
  have hauthorize :=
    fun permission caller orgId => reads_ofOrg (reads_authorize permission caller orgId)
  cases request with
  | createKey caller orgId apiId ip name expiresInDays =>
    refine Prog.Writes.ask
      fun createdAt => Prog.Writes.reads (hauthorize _ _ _)
        fun _ => createKey_writes fun issued => ?_
    refine auditRecord_tells
      fun row event hrow => Prog.Writes.ret ⟨[.addApiKey issued.1], row, event, ?_, rfl,
        by rw [hrow]; rfl⟩
    exact List.forall_mem_singleton.2 trivial
  | rotateKey caller orgId apiId keyId ip gracePeriodHours =>
    refine Prog.Writes.ask
      fun createdAt => Prog.Writes.reads (hauthorize _ _ _)
        fun _ => rotateKey_writes fun issued keyOps hkeys => ?_
    exact auditRecord_tells
      fun row event hrow => Prog.Writes.ret ⟨keyOps, row, event, hkeys, rfl, by rw [hrow]; rfl⟩
  | revokeKey caller orgId apiId keyId ip =>
    refine Prog.Writes.ask
      fun createdAt => Prog.Writes.reads (hauthorize _ _ _)
        fun _ => revokeKey_writes fun keyOps hkeys => ?_
    exact auditRecord_tells
      fun row event hrow => Prog.Writes.ret ⟨keyOps, row, event, hkeys, rfl, by rw [hrow]; rfl⟩

/-- What a query of the organization service finds holds while the organizations stay. -/
theorem ofOrg_safe {α β : Type} {p : Org α} (hp : p.Queries) {P : α → Prop}
    {σ : Session orgTables.backend} (h : p.Ends (fun a _ => P a) (fun _ _ => True) σ)
    (hσ : σ.db = db.orgs) {k : α → Platform β}
    {Q : β → List PlatformOp → List PlatformOp → PlatformDb → Prop}
    (hk : ∀ a db', db.KeepsKeys db' → P a → PlatformSafe (k a) Q [] [] db') :
        PlatformSafe (ofOrg p >>= k) Q [] [] db := by
  induction p generalizing db with
  | ret a => exact hk a db (.refl db) h
  | raise e => trivial
  | stmt f k' ih =>
    intro db' hr _ lk b ops hf
    have hf' : ((f (fun _ => false) db'.orgs).map fun r => (r.1, ([] : List PlatformOp))) =
      .ok (b, ops) := hf
    rw [hr.orgs, ← hσ] at hf'
    unfold Prog.Ends at h
    simp only [Prog.eval] at h
    cases hres : f (fun _ => false) σ.db with
    | error e =>
      rw [hres] at hf'
      cases hf'
    | ok r =>
      rw [hres] at hf' h
      cases hf'
      obtain ⟨hops, hq⟩ := hp _ _ _ _ hres
      dsimp only at h
      rw [hops] at h
      exact ⟨fun o ho => absurd ho List.not_mem_nil,
        ih _ hq h (hσ.trans hr.orgs.symm) fun a db'' h' => hk a db'' (hr.trans h')⟩
  | io f k ih => exact hp.elim
  | assign o p ih => exact hp.elim
  | flush p ih => exact hp.elim

/-- A key request goes on only for a caller who has the permission. -/
theorem apiKey_permits (cfg : Config) (request : ApiKeyRequest) (db : PlatformDb) :
    PlatformSafe (request.prog cfg)
        (fun _ _ _ db => db.orgs.Permits request.orgId request.caller request.permission)
            [] [] db := by
  have htrans : ∀ a b c : PlatformDb, a.KeepsKeys b → b.KeepsKeys c → a.KeepsKeys c :=
    fun _ _ _ h h' => h.trans h'
  have hauthorize : ∀ permission caller orgId (k : OrganizationMember → Platform ApiKeyAnswer)
      (db₁ : PlatformDb),
      PlatformSafe (ofOrg (OrgRequest.authorize permission caller orgId) >>= k)
        (fun _ _ _ db => db.orgs.Permits orgId caller permission) [] [] db₁ := by
    intro permission caller orgId k db₁
    have hends : (OrgRequest.authorize permission caller orgId).Ends
        (fun _ _ => db₁.orgs.Permits orgId caller permission)
        (fun _ _ => True) ⟨db₁.orgs, [], ⟨0, 0, Store.empty, ()⟩, fun _ => ⟨0, "", 0, ()⟩⟩ := by
      refine (Organizations.authorize_ends permission caller orgId _).mono ?_ fun _ _ _ => trivial
      rintro m s' ⟨rfl, hpermits, -⟩
      exact hpermits
    refine ofOrg_safe (queries_authorize _ _ _) hends rfl fun m db₂ h₂ hpermits => ?_
    refine Prog.Safe.of_forall htrans (fun _ _ => trivial) fun _ _ _ db₃ h₃ => ?_
    rw [h₃.orgs, h₂.orgs]
    exact hpermits
  cases request with
  | createKey caller orgId apiId ip name expiresInDays =>
    exact Prog.Safe.ask htrans fun createdAt => hauthorize _ _ _ _ db
  | rotateKey caller orgId apiId keyId ip gracePeriodHours =>
    exact Prog.Safe.ask htrans fun createdAt => hauthorize _ _ _ _ db
  | revokeKey caller orgId apiId keyId ip => exact Prog.Safe.ask htrans fun createdAt => hauthorize _ _ _ _ db

end

/-- Every request that commits writes its entry, however the keys are changed meanwhile. -/
theorem platformTells (cfg : GatewayConfig) :
    Bounded (PlatformRequest.prog cfg) (fun _ => True) PlatformDb.KeepsKeys
    (fun _ _ => True) (PlatformRequest.Tells cfg) where
  refl := PlatformDb.KeepsKeys.refl
  trans _ _ _ h h' := h.trans h'
  inv _ _ _ _ := trivial
  check _ _ _ _ _ := trivial
  stable _ _ _ _ _ := trivial
  safe r db _ := by
    cases r with
    | gateway request => exact proxy_tells cfg request db
    | apiKey request =>
      refine Prog.Safe.bind (fun _ => PlatformDb.KeepsKeys.refl) (by simp) ?_
      have hwrites :=
        Prog.Safe.rely_mono (fun _ db₁ db₂ (_ : PlatformDb.KeepsKeys db₁ db₂) => trivial)
          (apiKey_tells cfg.toConfig request db)
      refine (hwrites.and (apiKey_permits cfg.toConfig request db)).mono
        fun answer d w db' h db'' h' _ => ?_
      obtain ⟨⟨keyOps, row, event, hkeys, hw, hrow⟩, hpermits⟩ := h
      exact ⟨keyOps, row, event, hkeys, hw, hrow, by rw [h'.orgs]; exact hpermits⟩
  commit _ _ w db _ _ := PlatformDb.KeepsKeys.applyAll w db

/-! ### Whole runs -/

section
variable {cfg : GatewayConfig} {db₀ : PlatformDb} {s : PlatformSystem} {e : PlatformEvent}

theorem forall₂_logEntry_mono {db db' : PlatformDb} (hdb : db.KeepsKeys db')
    {es : List (HttpRequest × HttpResponse)} {rows : List RequestLog}
    (h : List.Forall₂ (fun e row => LogEntry cfg db e.1 e.2 row) es rows) :
    List.Forall₂ (fun e row => LogEntry cfg db' e.1 e.2 row) es rows := h.imp fun _ _ h => h.mono hdb

theorem forall₂_auditEntry_mono {db db' : PlatformDb} (hdb : db.KeepsKeys db')
    {es : List (ApiKeyRequest × ApiKeyAnswer)} {rows : List AuditLog}
    (h : List.Forall₂ (fun e row => AuditEntry db e.1 e.2 row) es rows) :
    List.Forall₂ (fun e row => AuditEntry db' e.1 e.2 row) es rows := h.imp fun _ _ h => h.mono hdb

/-- A commit adds the entry of its request. -/
theorem TellHistory.commits (h : TellHistory cfg db₀ s) {r : PlatformRequest} {a : PlatformAnswer}
    {w : List PlatformOp} (hc : s.commits e = some (r, a, w)) (hw : r.Tells cfg a w s.db)
    (ha : Accepted platformTables.backend PlatformOp.OfRequest w s.db) :
        TellHistory cfg db₀ (platformNext cfg s e) := by
  obtain ⟨logs, hlogs, hcalls⟩ := h.requestLogs
  obtain ⟨audits, haudits, hkeys⟩ := h.auditLogs
  have hdb : (platformNext cfg s e).db = applyAll platformTables.backend w s.db := by
    show (System.next (PlatformRequest.prog cfg) s e).db = _
    rw [System.next_db (PlatformRequest.prog cfg) s e, hc]
  have hhistory : (platformNext cfg s e).history = s.history ++ [(r, a)] := by
    show (System.next (PlatformRequest.prog cfg) s e).history = _
    rw [System.next_history (PlatformRequest.prog cfg) s e, hc]
  have hmono : s.db.KeepsKeys (applyAll platformTables.backend w s.db) := .applyAll w s.db
  cases r with
  | gateway request =>
    cases a with
    | apiKey answer => exact hw.elim
    | gateway response =>
      obtain ⟨i, row, event, rfl, hlogged⟩ := hw
      obtain ⟨-, hfits, -, hrows, haudit, -⟩ := tables_traces ha
      refine ⟨⟨logs ++ [row.stored], ?_, ?_⟩, ⟨audits, ?_, ?_⟩⟩
      · rw [hdb, hrows, hlogs, List.append_assoc]
      · rw [hdb, hhistory, gatewayCalls, List.filterMap_append]
        exact List.rel_append (forall₂_logEntry_mono hmono hcalls)
          (.cons ((hlogged hfits).mono hmono) .nil)
      · rw [hdb, haudit, haudits]
      · rw [hdb, hhistory, keyCalls, List.filterMap_append]
        exact (List.append_nil (keyCalls s.history)).symm ▸ forall₂_auditEntry_mono hmono hkeys
  | apiKey request =>
    cases a with
    | gateway response => exact hw.elim
    | apiKey answer =>
      obtain ⟨keyOps, row, event, hof, rfl, hrow, hpermits⟩ := hw
      obtain ⟨hfits, hlog, -, hrows, -⟩ := tables_audits hof ha
      have haudited : AuditEntry s.db request answer row.stored :=
        ⟨⟨row.trace, hrow, hfits, rfl⟩, hpermits⟩
      refine ⟨⟨logs, ?_, ?_⟩, ⟨audits ++ [row.stored], ?_, ?_⟩⟩
      · rw [hdb, hlog, hlogs]
      · rw [hdb, hhistory, gatewayCalls, List.filterMap_append]
        exact (List.append_nil (gatewayCalls s.history)).symm ▸ forall₂_logEntry_mono hmono hcalls
      · rw [hdb, hrows, haudits, List.append_assoc]
      · rw [hdb, hhistory, keyCalls, List.filterMap_append]
        exact List.rel_append (forall₂_auditEntry_mono hmono hkeys) (.cons (haudited.mono hmono) .nil)

/-- The invariant of a run. -/
structure Telling (cfg : GatewayConfig) (db₀ : PlatformDb) (s : PlatformSystem) : Prop where
  tells : TellHistory cfg db₀ s
  replayable : s.Replayable PlatformOp.OfRequest fun r _ w => r.Writes w
  guarded : s.Guarded (fun _ => True) (fun _ _ => PlatformDb.KeepsKeys) (fun _ _ => True)
    (PlatformRequest.Tells cfg)

theorem Telling.init (cfg : GatewayConfig) (db : PlatformDb) (world : World PlatformOutside) :
    Telling cfg db (System.init db world) where
  tells := ⟨⟨[], (List.append_nil _).symm, .nil⟩, ⟨[], (List.append_nil _).symm, .nil⟩⟩
  replayable := (System.init_quiet _ _).replayable
  guarded := (System.init_quiet _ _).guarded trivial

theorem Telling.next (h : Telling cfg db₀ s) : Telling cfg db₀ (platformNext cfg s e) := by
  refine ⟨?_, (platformReplay cfg).next h.replayable, (platformTells cfg).next_guarded h.guarded⟩
  rcases hc : s.commits e with _ | ⟨r, a, w⟩
  · have hdb : (platformNext cfg s e).db = s.db := by
      show (System.next (PlatformRequest.prog cfg) s e).db = _
      rw [System.next_db (PlatformRequest.prog cfg) s e, hc]
    have hhistory : (platformNext cfg s e).history = s.history := by
      show (System.next (PlatformRequest.prog cfg) s e).history = _
      rw [System.next_history (PlatformRequest.prog cfg) s e, hc, List.append_nil]
    exact ⟨by rw [hdb, hhistory]; exact h.tells.requestLogs, by rw [hdb, hhistory]; exact h.tells.auditLogs⟩
  · exact h.tells.commits hc ((platformTells cfg).relies.of_commits h.guarded hc)
      ((platformReplay cfg).of_commits h.replayable hc).2

end

/-- In every interleaving of gateway and key management requests, the logs list the committed
requests in the order of their commits: the request log those of the gateway, with the key that was
presented, and the audit log those of the key management, with a caller who had the permission. -/
theorem logs_tell_history (cfg : GatewayConfig) (db : PlatformDb) (world : World PlatformOutside)
    (es : List PlatformEvent) :
    Always (platformNext cfg) (TellHistory cfg db) (System.init db world) es := by
  refine Kit.always_iff.2 fun es₁ es₂ _ => ?_
  have hinv : Telling cfg db (run (platformNext cfg) (System.init db world) es₁) :=
    run_invariant (fun s e h => h.next) (.init cfg db world) es₁
  exact hinv.tells

end TrafficPlatform
