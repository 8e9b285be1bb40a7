import TrafficPlatform.Analytics.Rollup
import TrafficPlatform.Gateway.Logging
import TrafficPlatform.Management.Isolation

/-!
# The organization of an API in its copies

A key copies the organization of its API, a request log the one of its key, and a row of
`daily_usage` the one of its logs. An API keeps its organization and its id is never handed out
again, so that the copies agree also after the API is deleted. Every kind of step is put down to
what it does to these tables (`Copies`), and the invariant (`Consistent`) speaks of all states of
the run so far.
-/

namespace TrafficPlatform
open Kit Gateway GatewayService

/-- A transaction of the platform alone. -/
def ManagementState.transact {α : Type} (s : ManagementState) (p : Platform α)
    (envs : Nat → Env PlatformInput) : ManagementState :=
  let out := scope p envs (⟨s.db, s.world⟩ : State platformTables.backend)
  ⟨out.2.db, out.2.world⟩

/-- A management request, a gateway request, a rollup, or something that leaves these tables alone. -/
inductive PlatformStep (cfg : GatewayConfig) : ManagementState → ManagementState → Prop
  | management {s : ManagementState} (c : ManagementCall) : PlatformStep cfg s (s.call cfg.toConfig c)
  | gateway {s : ManagementState} (request : HttpRequest) (envs : Nat → Env PlatformInput) :
    PlatformStep cfg s (s.transact (proxy cfg request) envs)
  | rollup {s : ManagementState} (day : Day) (envs : Nat → Env PlatformInput) :
    PlatformStep cfg s (s.transact (AnalyticsRepository.rollupDaily day) envs)
  | elsewhere {s : ManagementState} {db : PlatformDb} {w : World PlatformOutside} :
    s.db.SameTenants db →
    db.requestLogs = s.db.requestLogs → db.dailyUsage = s.db.dailyUsage →
      s.world.supply ≤ w.supply → PlatformStep cfg s ⟨db, w⟩

/-- The states of a run from a database without organizations, the last one first. -/
inductive PlatformHistory (cfg : GatewayConfig) : List ManagementState → Prop
  | initial (users : Table User) (roles : Table Role) (w : World PlatformOutside) :
    PlatformHistory cfg [⟨.initial users roles, w⟩]
  | step {s s' : ManagementState} {earlier : List ManagementState} : PlatformStep cfg s s' →
    PlatformHistory cfg (s :: earlier) →
    PlatformHistory cfg (s' :: s :: earlier)

/-- The API belonged to the organization. -/
def Belonged (history : List ManagementState) (apiId orgId : Uuid) : Prop :=
  ∃ s ∈ history, ∃ a ∈ s.db.apis.rows, a.id = apiId ∧ a.organizationId = orgId

/-! ### What a step copies -/

/-- What a step does to the copies: APIs keep their organization or are new, and a new request log
has it. -/
structure Copies (s s' : ManagementState) : Prop where
  supply : s.world.supply ≤ s'.world.supply
  keys : s.db.KeysOwned → s'.db.KeysOwned
  apis : ∀ a ∈ s'.db.apis.rows,
    (∃ a₀ ∈ s.db.apis.rows, a₀.id = a.id ∧ a₀.organizationId = a.organizationId) ∨
    s.world.Issues s'.world a.id
  logs : s.db.KeysOwned → ∀ r ∈ s'.db.requestLogs.rows, r ∈ s.db.requestLogs.rows ∨
    ∃ a ∈ s.db.apis.rows, a.id = r.apiId ∧ a.organizationId = r.organizationId
  usage : ∀ u ∈ s'.db.dailyUsage.rows, u ∈ s.db.dailyUsage.rows ∨ u.id < s'.world.supply

section
variable {cfg : Config} {t : Transition} {orgId : Uuid} {db : PlatformDb} {o : ManagementOp}

theorem mem_apis_write {a : Api} (h : o.Lawful cfg t orgId db) (ha : a ∈ (o.apply db).apis.rows) :
    (∃ a₀ ∈ db.apis.rows, a₀.id = a.id ∧ a₀.organizationId = a.organizationId) ∨
        t.world.Issues t.world' a.id := by
  have same : a ∈ db.apis.rows →
      (∃ a₀ ∈ db.apis.rows, a₀.id = a.id ∧ a₀.organizationId = a.organizationId) ∨
      t.world.Issues t.world' a.id := fun hmem => .inl ⟨a, hmem, rfl, rfl⟩
  cases o with
  | org o =>
    cases o with
    | deleteOrganization id => exact same (Table.mem_delete.1 ha).1
    | setOrganizationName id name => exact same ha
    | addMember m => exact same ha
    | setMemberRole id roleId => exact same ha
    | deleteMember id => exact same ha
    | addNotification n => exact same ha
  | platform o =>
    cases o with
    | addApiKey k => exact same ((addApiKey_apis (k := k)) ▸ ha)
    | incrementUsage i => exact h.elim
    | _ => exact same ha
  | addApi a' =>
    rcases Table.mem_or_eq_of_mem_insert ha with ha | rfl
    · exact same ha
    · exact .inr h.2.1
  | changeApi id c =>
    obtain ⟨a₀, ha₀, rfl⟩ := List.mem_map.1 ha
    exact .inl ⟨a₀, ha₀, by split <;> rfl, by split <;> rfl⟩
  | deleteApi id => exact same (Table.mem_delete.1 ha).1
  | _ => exact same ha

theorem logs_write (h : o.Lawful cfg t orgId db) :
    (o.apply db).requestLogs = db.requestLogs ∧ (o.apply db).dailyUsage = db.dailyUsage := by
  cases o with
  | org o => cases o <;> exact ⟨rfl, rfl⟩
  | platform o =>
    cases o with
    | addApiKey k =>
      simp only [ManagementOp.apply, PlatformOp.apply, PlatformDb.addApiKey]
      split <;> exact ⟨rfl, rfl⟩
    | addRequestLog r => exact h.elim
    | incrementUsage i => exact h.elim
    | deleteDailyUsage id => exact h.elim
    | addDailyUsage r => exact h.elim
    | _ => exact ⟨rfl, rfl⟩
  | _ => exact ⟨rfl, rfl⟩

end

section
variable {cfg : GatewayConfig} {s : ManagementState}

theorem copies_management (c : ManagementCall) : Copies s (s.call cfg.toConfig c) := by
  have hsame : (s.call cfg.toConfig c).db.requestLogs = s.db.requestLogs ∧
      (s.call cfg.toConfig c).db.dailyUsage = s.db.dailyUsage :=
    ManagementState.call_keeps
      (P := fun db => db.requestLogs = s.db.requestLogs ∧ db.dailyUsage = s.db.dailyUsage)
        ⟨rfl, rfl⟩
      fun orgId o db ho hdb => ⟨(logs_write ho).1.trans hdb.1, (logs_write ho).2.trans hdb.2⟩
  refine ⟨(ManagementState.call_grown cfg.toConfig s c).supply,
    fun hk => ?_, ?_, fun _ r hr => .inl (hsame.1 ▸ hr), fun u hu => .inl (hsame.2 ▸ hu)⟩
  · exact ManagementState.call_keeps hk fun orgId o db ho hdb => hdb.write ho
  · refine ManagementState.call_keeps
      (P := fun db => ∀ a ∈ db.apis.rows, (∃ a₀ ∈ s.db.apis.rows, a₀.id = a.id ∧
      a₀.organizationId = a.organizationId) ∨ s.world.Issues (s.call cfg.toConfig c).world a.id)
      (fun a ha => .inl ⟨a, ha, rfl, rfl⟩) fun orgId o db ho hdb a ha => ?_
    rcases mem_apis_write ho ha with ⟨a₁, ha₁, hid, horg⟩ | hissued
    · rw [← hid, ← horg]
      exact hdb a₁ ha₁
    · exact .inr hissued

theorem grown_record (createdAt : Time) (outcome : GatewayOutcome) :
    (RequestLogService.record createdAt outcome).Within World.Grown := by
  rw [record_eq]
  refine grown_uuid4.bind
    fun id => Prog.Within.bind (by simp) fun _ => grown_uuid4.bind fun usageId => ?_
  refine Prog.Within.bind (fun b => by cases b; trivial)
    fun _ => grown_uuid4.bind fun eventId => grown_uuid4.bind fun outboxId => ?_
  simp

/-- What a request leaves when it is answered. -/
theorem proxy_copies (cfg : GatewayConfig) (request : HttpRequest)
    (s : Session platformTables.backend) (hd : s.dirty = []) :
    (proxy cfg request).Ends
      (fun _ s' => s.world.supply ≤ s'.world.supply ∧ ∃ outcome, s.db.Serves outcome ∧
        ∃ id usageId createdAt o,
        s'.db = s.db.incrementUsage (outcome.increment usageId) ∧
          s'.dirty = [.addRequestLog (outcome.row id createdAt), .addOutbox o])
      (fun _ s' => s.world.supply ≤ s'.world.supply) s := by
  unfold proxy
  refine (clock_ends s).bind fun createdAt s₁ ⟨_, _, h₁⟩ => ?_
  have hhandle : (handle cfg (incomingRequest request) (extractApiKey request)).Ends
      (fun outcome s₂ => s₂.db = s.db ∧ s₂.dirty = [] ∧ s.world.supply ≤ s₂.world.supply ∧
        s.db.Serves outcome)
      (fun _ s₂ => s.world.supply ≤ s₂.world.supply) s₁ := by
    refine ((handle_fromRequest cfg (incomingRequest request) (extractApiKey request) s₁).and
      ((reads_handle cfg (incomingRequest request) (extractApiKey request)).ends Counting.refl
        Counting.trans s₁)).mono ?_ ?_
    · rintro outcome s₂ ⟨⟨-, hserves⟩, hdb, hdirty, -, hsupply⟩
      exact ⟨hdb.trans h₁.db, hdirty.trans (h₁.dirty.trans hd),
        h₁.world.supply.trans_eq hsupply.symm, h₁.db ▸ hserves⟩
    · rintro e s₂ ⟨-, -, -, -, hsupply⟩
      exact h₁.world.supply.trans_eq hsupply.symm
  refine hhandle.bind fun outcome s₂ ⟨hdb₂, hdirty₂, hsupply₂, hserves⟩ => ?_
  have hrecord : (RequestLogService.record createdAt outcome).Ends
      (fun _ s₃ => s.world.supply ≤ s₃.world.supply ∧ ∃ id usageId o,
        s₃.db = s.db.incrementUsage (outcome.increment usageId) ∧
        s₃.dirty = [.addRequestLog (outcome.row id createdAt), .addOutbox o])
            (fun _ s₃ => s.world.supply ≤ s₃.world.supply) s₂ := by
    refine ((record_ends createdAt outcome s₂).and
      ((grown_record createdAt outcome).ends World.Grown.refl World.Grown.trans s₂)).mono ?_ ?_
    · rintro _ s₃ ⟨⟨id, usageId, outboxId, eventId, -, -, hdb, hdirty⟩, hgrown⟩
      rw [hdb₂] at hdb
      rw [hdirty₂, List.nil_append] at hdirty
      exact ⟨hsupply₂.trans hgrown.supply, id, usageId, _, hdb, hdirty⟩
    · exact fun _ s₃ h => hsupply₂.trans h.2.supply
  refine hrecord.bind fun _ s₃ ⟨hsupply, id, usageId, o, hdb, hdirty⟩ => ?_
  cases response outcome with
  | some resp => exact Prog.ends_ret ⟨hsupply, outcome, hserves, id, usageId, createdAt, o, hdb, hdirty⟩
  | none => exact Prog.ends_raise hsupply

/-- The log of a request carries the organization of the API that served it. -/
theorem copies_gateway (request : HttpRequest) (envs : Nat → Env PlatformInput) :
    Copies s (s.transact (proxy cfg request) envs) := by
  have hends :=
    proxy_copies cfg request (⟨s.db, [], s.world, envs⟩ : Session platformTables.backend) rfl
  unfold ManagementState.transact
  rcases hends.scope (s := (⟨s.db, s.world⟩ : State platformTables.backend)) with
    ⟨_, s', db, ⟨hsupply, outcome, ⟨key, hkey, api, hapi, hid, -, hapiId, horg⟩, id, usageId,
      createdAt, o, hdb, hdirty⟩, hflush, hout⟩ | ⟨e, s', he, hout⟩
  · rw [hout]
    rw [hdirty] at hflush
    have hdb' : db =
        ((s.db.incrementUsage (outcome.increment usageId)).addRequestLog
            (outcome.row id createdAt)).addOutbox o :=
      (flushAll_eq hflush).trans (by rw [hdb]; rfl)
    have hapis : db.apis = s.db.apis := by
      rw [hdb']
      exact PlatformDb.incrementUsage_apis _ _
    have hkeys : db.apiKeys = s.db.apiKeys := by
      rw [hdb']
      exact PlatformDb.incrementUsage_apiKeys _ _
    have husage : db.dailyUsage = s.db.dailyUsage := by
      rw [hdb']
      exact PlatformDb.incrementUsage_dailyUsage _ _
    refine ⟨hsupply,
      fun hk => ?_,
        fun a ha => .inl ⟨a, hapis ▸ ha, rfl, rfl⟩,
          fun hk r hr => ?_, fun u hu => .inl (husage ▸ hu)⟩
    · exact hk.of_le (fun k hmem => ⟨k, hkeys ▸ hmem, rfl, rfl⟩) fun a ha => ⟨a, hapis ▸ ha, rfl, rfl⟩
    · have hlogs : r ∈
          ((s.db.incrementUsage (outcome.increment usageId)).requestLogs.insert
              (outcome.row id createdAt).stored).rows := by
        rw [hdb'] at hr
        exact hr
      rw [PlatformDb.incrementUsage_requestLogs] at hlogs
      refine (Table.mem_or_eq_of_mem_insert hlogs).imp_right fun hrow => ⟨api, hapi, ?_, ?_⟩
      · exact hapiId.symm.trans (congrArg RequestLog.apiId hrow).symm
      · exact (hk key hkey api hapi hid).trans
          (horg.symm.trans (congrArg RequestLog.organizationId hrow).symm)
  · rw [hout]
    have hsupply : s.world.supply ≤ s'.world.supply := by
      rcases he with he | ⟨_, ⟨he, -⟩, -⟩ <;> exact he
    exact ⟨hsupply, id, fun a ha => .inl ⟨a, ha, rfl, rfl⟩, fun _ r hr => .inl hr, fun u hu => .inl hu⟩

theorem copies_rollup (day : Day) (envs : Nat → Env PlatformInput) :
    Copies s (s.transact (AnalyticsRepository.rollupDaily day) envs) := by
  obtain ⟨new, high, hle, hnew, hscope⟩ :=
    scope_rollupDaily day envs (⟨s.db, s.world⟩ : State platformTables.backend)
  unfold ManagementState.transact
  rw [hscope]
  cases hflush : flushAll platformTables.backend (new.map .addDailyUsage) (s.db.cleared day) with
  | error e => exact ⟨hle, id, fun a ha =>
    .inl ⟨a, ha, rfl, rfl⟩, fun _ r hr => .inl hr, fun u hu => .inl hu⟩
  | ok db =>
    obtain ⟨t, ht, rfl⟩ := flushAll_addDailyUsage_eq hflush
    refine ⟨hle, id, fun a ha => .inl ⟨a, ha, rfl, rfl⟩, fun _ r hr => .inl hr, fun u hu => ?_⟩
    rcases List.mem_append.1 (ht ▸ hu) with hu | hu
    · exact .inl (Table.mem_delete.1 hu).1
    · exact .inr (hnew.lt_high u hu)

theorem PlatformStep.copies {s' : ManagementState} (h : PlatformStep cfg s s') : Copies s s' := by
  cases h with
  | management c => exact copies_management c
  | gateway request envs => exact copies_gateway request envs
  | rollup day envs => exact copies_rollup day envs
  | elsewhere hsame hlogs husage hsupply =>
    refine ⟨hsupply,
      fun hk => ?_, fun a ha => .inl ⟨a, hsame.apis ▸ ha, rfl, rfl⟩, fun _ r hr => .inl (hlogs ▸
        hr), fun u hu => .inl (husage ▸ hu)⟩
    exact hk.of_le (fun k hmem => ⟨k, hsame.apiKeys ▸ hmem, rfl, rfl⟩)
      fun a ha => ⟨a, hsame.apis ▸ ha, rfl, rfl⟩

end

/-! ### Every run -/

/-- The copies agree: an id stands for one organization in all states so far, and every copy has it. -/
structure Consistent (s : ManagementState) (earlier : List ManagementState) : Prop where
  keys : s.db.KeysOwned
  issued : ∀ apiId orgId, Belonged (s :: earlier) apiId orgId → apiId < s.world.supply
  unique : ∀ apiId orgId orgId', Belonged (s :: earlier) apiId orgId →
    Belonged (s :: earlier) apiId orgId' → orgId = orgId'
  logs : ∀ r ∈ s.db.requestLogs.rows, Belonged (s :: earlier) r.apiId r.organizationId
  usage : ∀ u ∈ s.db.dailyUsage.rows, u.id < s.world.supply

section
variable {s s' : ManagementState} {earlier : List ManagementState} {apiId orgId orgId' : Uuid}

theorem Belonged.cons (h : Belonged earlier apiId orgId) : Belonged (s :: earlier) apiId orgId := by
  obtain ⟨s₀, hs₀, h⟩ := h
  exact ⟨s₀, List.mem_cons_of_mem _ hs₀, h⟩

theorem Copies.belonged (h : Copies s s') (hb : Belonged (s' :: s :: earlier) apiId orgId) :
    Belonged (s :: earlier) apiId orgId ∨
      s.world.Issues s'.world apiId ∧ ∃ a ∈ s'.db.apis.rows, a.id = apiId ∧
          a.organizationId = orgId := by
  obtain ⟨s₀, hs₀, a, ha, rfl, rfl⟩ := hb
  rcases List.mem_cons.1 hs₀ with rfl | hs₀
  · rcases h.apis a ha with ⟨a₀, ha₀, hid, horg⟩ | hissued
    · exact .inl ⟨s, List.mem_cons_self, a₀, ha₀, hid, horg⟩
    · exact .inr ⟨hissued, a, ha, rfl, rfl⟩
  · exact .inl ⟨s₀, hs₀, a, ha, rfl, rfl⟩

theorem Consistent.step (h : Consistent s earlier) (hstep : Copies s s') :
    Consistent s' (s :: earlier) := by
  refine ⟨hstep.keys h.keys,
    fun apiId orgId hb => ?_, fun apiId orgId orgId' hb hb' => ?_, fun r hr => ?_, fun u hu => ?_⟩
  · rcases hstep.belonged hb with hb | ⟨hissued, -⟩
    · exact (h.issued _ _ hb).trans_le hstep.supply
    · exact hissued.2
  · -- an id that is issued in this step belonged to no API before
    rcases hstep.belonged hb with hb | ⟨hissued, a, ha, hid, rfl⟩ <;>
      rcases hstep.belonged hb' with hb' | ⟨hissued', a', ha', hid', rfl⟩
    · exact h.unique _ _ _ hb hb'
    · exact absurd (h.issued _ _ hb) (Nat.not_lt.2 hissued'.1)
    · exact absurd (h.issued _ _ hb') (Nat.not_lt.2 hissued.1)
    · rw [Table.eq_of_clash ha ha' (Api.clash_iff.2 (.inl (hid.trans hid'.symm)))]
  · rcases hstep.logs h.keys r hr with hr | ⟨a, ha, hid, horg⟩
    · exact (h.logs r hr).cons
    · exact ⟨s, List.mem_cons_of_mem _ List.mem_cons_self, a, ha, hid, horg⟩
  · rcases hstep.usage u hu with hu | hu
    · exact (h.usage u hu).trans_le hstep.supply
    · exact hu

end

theorem PlatformHistory.consistent {cfg : GatewayConfig} {history : List ManagementState}
    (h : PlatformHistory cfg history) :
    ∃ s earlier, history = s :: earlier ∧ Consistent s earlier := by
  induction h with
  | initial users roles w =>
    have hno : ∀ apiId orgId,
        ¬ Belonged [(⟨.initial users roles, w⟩ : ManagementState)] apiId orgId := by
      rintro apiId orgId ⟨s, hs, a, ha, -⟩
      rw [List.mem_singleton.1 hs] at ha
      exact List.not_mem_nil ha
    exact ⟨_, _, rfl,
      fun k hk => absurd hk List.not_mem_nil,
        fun _ _ hb => absurd hb (hno _ _), fun _ _ _ hb => absurd hb (hno _ _),
      fun r hr => absurd hr List.not_mem_nil, fun u hu => absurd hu List.not_mem_nil⟩
  | step hstep _ ih =>
    obtain ⟨s, earlier, hcons, hconsistent⟩ := ih
    cases hcons
    exact ⟨_, _, rfl, hconsistent.step hstep.copies⟩

/-- Denormalized ownership: a key has the organization of its API, a request log the one that its
API had in every state in which it existed, no two logs of an API differ in it, and so the rollup
has one row for every API of a day and violates no constraint. -/
theorem denormalized_ownership (cfg : GatewayConfig) {s : ManagementState}
    {earlier : List ManagementState} (h : PlatformHistory cfg (s :: earlier)) :
    (∀ k ∈ s.db.apiKeys.rows, ∃ a ∈ s.db.apis.rows, a.id = k.apiId ∧
      a.organizationId = k.organizationId) ∧
    (∀ r ∈ s.db.requestLogs.rows, (∃ s₀ ∈ s :: earlier, ∃ a ∈ s₀.db.apis.rows, a.id = r.apiId) ∧
      ∀ s₀ ∈ s :: earlier, ∀ a ∈ s₀.db.apis.rows, a.id = r.apiId →
        a.organizationId = r.organizationId) ∧
    (∀ r ∈ s.db.requestLogs.rows, ∀ r' ∈ s.db.requestLogs.rows, r.apiId = r'.apiId →
      r.organizationId = r'.organizationId) ∧
    ∀ day, (∀ n, (s.db.rollupRows day n).Pairwise fun r r' => r.apiId ≠ r'.apiId) ∧
      ∀ envs, (scope (AnalyticsRepository.rollupDaily day) envs
          (⟨s.db, s.world⟩ : State platformTables.backend)).1 ≠ .error .integrityError := by
  obtain ⟨_, _, hcons, hc⟩ := h.consistent
  cases hcons
  have hone : s.db.OneOrganization :=
    fun r hr r' hr' he => hc.unique _ _ _ (hc.logs r hr) (he ▸ hc.logs r' hr')
  refine ⟨fun k hk => ?_,
    fun r hr => ⟨?_, fun s₀ hs₀ a ha hid => ?_⟩, hone,
      fun day => ⟨fun _ => rollupRows_apis hone, fun envs => ?_⟩⟩
  · obtain ⟨a, ha, hid⟩ := s.db.keyRefers k hk
    exact ⟨a, ha, hid, hc.keys k hk a ha hid⟩
  · obtain ⟨s₀, hs₀, a, ha, hid, -⟩ := hc.logs r hr
    exact ⟨s₀, hs₀, a, ha, hid⟩
  · exact hc.unique _ _ _ ⟨s₀, hs₀, a, ha, hid, rfl⟩ (hc.logs r hr)
  · have hapis : (s.db.rollupRows day (envs 0).number).Pairwise _ := rollupRows_apis hone
    rcases rollup_outcome (s := (⟨s.db, s.world⟩ : State platformTables.backend)) hc.usage hapis with
      ⟨-, ⟨n, hok⟩, -⟩ | ⟨-, herr⟩
    · rw [hok]
      exact fun h => by cases h
    · rw [herr]
      exact fun h => by cases h

/-- The API `102` of the organization `100`, with a version and a key. -/
def samplePublished : ManagementState :=
  ((sampleManagement.call sampleConfig (sampleCall (.createApi 1 100 "own" none ""))).call sampleConfig
    (sampleCall (.addVersion 1 100 102 "v1" "https://own.test" true))).call sampleConfig
      (sampleCall (.key (.createKey 1 100 102 "10.0.0.1" "key" none)))

/-- A request to it is served. -/
def sampleServed : ManagementState :=
  samplePublished.transact
    (proxy sampleGatewayConfig
      ⟨"GET", "own", "v1", "", "", [("x-api-key", "atp__")], [], some "10.0.0.1"⟩)
    fun _ => sampleGatewayEnv 1

/-- And then it is deleted. -/
def sampleDeleted : ManagementState :=
  sampleServed.call sampleConfig (sampleCall (.deleteApi 1 100 102))

theorem denormalized_ownership_deleted : sampleDeleted.db.apis.rows = [] ∧
    sampleDeleted.db.requestLogs.rows.map (fun r => (r.apiId, r.organizationId)) = [(102, 100)] ∧
    ∀ day envs, (scope (AnalyticsRepository.rollupDaily day) envs
      (⟨sampleDeleted.db, sampleDeleted.world⟩ : State platformTables.backend)).1 ≠
          .error .integrityError := by
  have hstart : PlatformHistory sampleGatewayConfig [_] :=
    .initial (sampleOrgDb .owner).users (sampleOrgDb .owner).roles sampleGatewayWorld
  have hhistory :=
    (((((hstart.step (.management (sampleCall (.createOrganization 1 "acme" none)))).step
      (.management (sampleCall
    (.createApi 1 100 "own" none "")))).step (.management (sampleCall
      (.addVersion 1 100 102 "v1" "https://own.test" true)))).step
      (.management (sampleCall (.key (.createKey 1 100 102 "10.0.0.1" "key" none))))).step (.gateway
        ⟨"GET", "own", "v1", "", "", [("x-api-key", "atp__")], [], some "10.0.0.1"⟩
          fun _ => sampleGatewayEnv 1)).step
          (.management (sampleCall (.deleteApi 1 100 102)))
  refine ⟨by decide +kernel, by decide +kernel, fun day => ?_⟩
  exact ((denormalized_ownership sampleGatewayConfig (s := sampleDeleted) hhistory).2.2.2 day).2

end TrafficPlatform
