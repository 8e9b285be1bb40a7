import TrafficPlatform.Gateway
import TrafficPlatform.Kit.Ends
import Mathlib.Data.List.Rotate

/-!
# Which requests reach an upstream

One call of `handle` at one clock reading. It goes through the key (`Authentic`), the route
(`Routes`), the rate limit (`LimitAllows`) and the quotas (`QuotasLeft`), each a fact about the
stores before the call, and sends the request to the upstream of the version exactly if all of them
hold (`gateway_admission`).
-/

namespace TrafficPlatform
open Kit Gateway GatewayService

/-- All clocks read `t` from now on. -/
def Steady (t : Time) (s : Session platformTables.backend) : Prop := s.world.clock ≤ t ∧ ∀ n,
    (s.envs n).time = t

/-- The presented key is that of a stored one that is valid at `t`, and `api` is its API and active.
An empty key counts as none. -/
structure Authentic (cfg : GatewayConfig) (db : PlatformDb) (t : Time)
    (presentedKey : Option String) (key : ApiKey) (api : Api) : Prop where
  presented : ∃ raw, presentedKey = some raw ∧ raw ≠ "" ∧ key.keyHash = cfg.hashToken raw
  key_mem : key ∈ db.apiKeys.rows
  not_revoked : key.revokedAt = none
  not_expired : ∀ e, key.expiresAt = some e → t < e
  api_mem : api ∈ db.apis.rows
  api_id : api.id = key.apiId
  api_active : api.isActive = true

/-- The path names the API of the key, and an active version of it. -/
structure Routes (cfg : GatewayConfig) (db : PlatformDb) (t : Time) (req : IncomingRequest)
    (presentedKey : Option String) (key : ApiKey) (api : Api) (version : ApiVersion) :
        Prop extends Authentic cfg db t presentedKey key api where
  slug : api.slug = req.apiSlug
  version_mem : version ∈ db.apiVersions.rows
  version_api : version.apiId = api.id
  version_name : version.version = req.version
  version_active : version.isActive = true

/-- The rule of the API, if it has one, allows a request of the key. -/
def LimitAllows (db : PlatformDb) (t : Time) (limits : LimiterStore) (apiId apiKeyId : Uuid) : Prop :=
  ∀ rule ∈ db.rateLimitRules.rows, rule.apiId = apiId → ∃ result : RateLimitResult,
    (rule.algorithm.check Double.round [.uuid apiId, .uuid apiKeyId]
      ⟨rule.requests, rule.windowSeconds, rule.burst⟩ (Time.unix t) 0
      (Time.millis t) limits).map (·.1) = .ok result ∧ result.allowed = true

/-- One more request of the key is within every quota of the API. -/
def QuotasLeft (db : PlatformDb) (t : Time) (redis : Store RedisKey Int Time)
    (apiId apiKeyId : Uuid) : Prop :=
  ∀ q ∈ db.quotas.rows, q.apiId = apiId → (redis.get t (counterKey t apiKeyId q.period)).getD 0 +
    1 ≤ q.maxRequests

/-- What an upstream gets. -/
def upstreamRequest (version : ApiVersion) (req : IncomingRequest) : UpstreamRequest :=
  ⟨req.method, upstreamUrl version.upstreamBaseUrl req.upstreamPath req.queryString,
    passedOn req.headers, req.body⟩

/-- The URL is the base URL without the slashes at its end, followed by the path, with one slash for
those in front of it, and by the query, where there are any. -/
def ReachesUpstream (baseUrl path query url : String) : Prop :=
  ∃ base slashes front rest : List Char, baseUrl = .ofList (base ++ slashes) ∧
    path = .ofList (front ++ rest) ∧
    (∀ c ∈ slashes ++ front, c = '/') ∧ base.getLast? ≠ some '/' ∧ rest.head? ≠ some '/' ∧
    url = .ofList
      (base ++ (if path = "" then [] else '/' :: rest) ++ if query = "" then [] else '?' ::
        query.toList)

section
variable {cfg : GatewayConfig} {db : PlatformDb} {t : Time} {req : IncomingRequest}
    {presentedKey : Option String}
  {key key' : ApiKey} {api api' : Api} {version version' : ApiVersion}
    {s s₁ s₂ : Session platformTables.backend}

theorem Authentic.unique (h : Authentic cfg db t presentedKey key api)
    (h' : Authentic cfg db t presentedKey key' api') :
    key' = key ∧ api' = api := by
  obtain ⟨raw, hraw, -, hhash⟩ := h.presented
  obtain ⟨raw', hraw', -, hhash'⟩ := h'.presented
  have heq : raw' = raw := Option.some.inj (hraw'.symm.trans hraw)
  rw [heq] at hhash'
  obtain rfl : key' = key :=
    Table.eq_of_clash h'.key_mem h.key_mem (ApiKey.clash_iff.2 (.inr (hhash'.trans hhash.symm)))
  exact ⟨rfl, Table.eq_of_clash h'.api_mem h.api_mem
    (Api.clash_iff.2 (.inl (h'.api_id.trans h.api_id.symm)))⟩

theorem Routes.unique (h : Routes cfg db t req presentedKey key api version)
    (h' : Routes cfg db t req presentedKey key' api' version') : key' = key ∧ api' = api ∧
        version' = version := by
  obtain ⟨rfl, rfl⟩ := h.toAuthentic.unique h'.toAuthentic
  refine ⟨rfl, rfl, Table.eq_of_clash h'.version_mem h.version_mem
    (ApiVersion.clash_iff.2 (.inr ⟨?_, ?_⟩))⟩
  · rw [h'.version_api, h.version_api]
  · rw [h'.version_name, h.version_name]

theorem Steady.nowAt_eq (h : Steady t s) : nowAt s = t := by
  unfold nowAt
  rw [h.2 0]
  exact max_eq_right h.1

theorem Steady.nextAt_eq (h : Steady t s) : nextAt s = t := by
  unfold nextAt
  rw [h.nowAt_eq, h.2 1]
  exact max_self t

theorem Steady.later (h : Steady t s) (hs : Later s s₁) (hc : s₁.world.clock ≤ t) : Steady t s₁ := by
  obtain ⟨n, hn⟩ := hs.envs
  exact ⟨hc, fun m => by rw [hn]; exact h.2 _⟩

/-- A part of the call that sends nothing. -/
structure Silent (t : Time) (s s₁ : Session platformTables.backend) : Prop where
  steady : Steady t s₁
  db : s₁.db = s.db
  sent : s₁.world.outside.sent = s.world.outside.sent

/-- A part of the call that touches no quota counter either. -/
structure Still (t : Time) (s s₁ : Session platformTables.backend) : Prop extends Silent t s s₁ where
  redis : s₁.world.redis = s.world.redis

/-- A part of the call that touches no key of Redis. -/
structure Untouched (t : Time) (s s₁ : Session platformTables.backend) : Prop extends Still t s s₁ where
  limits : s₁.world.outside.limits = s.world.outside.limits

theorem Silent.trans (h : Silent t s s₁) (h' : Silent t s₁ s₂) : Silent t s s₂ :=
  ⟨h'.steady, h'.db.trans h.db, h'.sent.trans h.sent⟩

theorem Still.trans (h : Still t s s₁) (h' : Still t s₁ s₂) : Still t s s₂ :=
  ⟨h.toSilent.trans h'.toSilent, h'.redis.trans h.redis⟩

theorem Untouched.trans (h : Untouched t s s₁) (h' : Untouched t s₁ s₂) : Untouched t s s₂ :=
  ⟨h.toStill.trans h'.toStill, h'.limits.trans h.limits⟩

theorem Untouched.refl (h : Steady t s) : Untouched t s s := ⟨⟨⟨h, rfl, rfl⟩, rfl⟩, rfl⟩

/-! ### The URL -/

theorem reachesUpstream_upstreamUrl (baseUrl path query : String) :
    ReachesUpstream baseUrl path query (upstreamUrl baseUrl path query) := by
  have hslash : ∀ l : List Char, ∀ c ∈ l.takeWhile (· == '/'), c = '/' :=
    fun _ c hc => beq_iff_eq.1 (List.all_eq_true.1 List.all_takeWhile c hc)
  have hhead : ∀ l : List Char, (l.dropWhile (· == '/')).head? ≠ some '/' := by
    intro l he
    have hno := List.head?_dropWhile_not (· == '/') l
    rw [he] at hno
    cases hno
  refine ⟨dropRightWhile (· == '/') baseUrl.toList,
    (baseUrl.toList.reverse.takeWhile (· == '/')).reverse,
    path.toList.takeWhile (· == '/'), path.toList.dropWhile (· == '/'), ?_, ?_,
      fun c hc => ?_, ?_, hhead _, ?_⟩
  · rw [dropRightWhile, ← List.reverse_append, List.takeWhile_append_dropWhile,
      List.reverse_reverse, String.ofList_toList]
  · rw [List.takeWhile_append_dropWhile, String.ofList_toList]
  · rcases List.mem_append.1 hc with hc | hc
    · exact hslash _ c (List.mem_reverse.1 hc)
    · exact hslash _ c hc
  · rw [dropRightWhile, List.getLast?_reverse]
    exact hhead _
  · refine String.toList_injective ?_
    unfold upstreamUrl rstripSlash lstripSlash
    by_cases hpath : path = "" <;> by_cases hquery : query = "" <;>
      simp [hpath, hquery, String.toList_append]

/-! ### The key and the route -/

theorem now_ends (h : Steady t s) {E : Failure → Session platformTables.backend → Prop} :
    (now : Platform Time).Ends (fun time s₁ => t = time ∧ Untouched t s s₁) E s := by
  refine Prog.ends_ask
    ⟨h.nowAt_eq.symm, ⟨⟨⟨le_of_eq h.nowAt_eq, fun n => h.2 (n + 1)⟩, rfl, rfl⟩, rfl⟩, rfl⟩

theorem keyByHash_iff {hash : String} : ((db.apiKeys.one fun k => k.keyHash == hash).bind fun k =>
      (db.apis.one fun a => a.id == k.apiId).map fun a => (k, a)) = some (key, api) ↔
    (key ∈ db.apiKeys.rows ∧ key.keyHash = hash) ∧ api ∈ db.apis.rows ∧ api.id = key.apiId := by
  have hkey : ∀ k, (db.apiKeys.one fun k => k.keyHash == hash) = some k ↔ k ∈ db.apiKeys.rows ∧
      k.keyHash = hash := by
    intro k
    rw [Table.one_iff
      fun a b ha hb => ApiKey.clash_iff.2 (.inr ((beq_iff_eq.1 ha).trans (beq_iff_eq.1 hb).symm)),
        beq_iff_eq]
  have hapi : ∀ k : ApiKey, ∀ a, (db.apis.one fun a => a.id == k.apiId) = some a ↔
      a ∈ db.apis.rows ∧ a.id = k.apiId := by
    intro k a
    rw [Table.one_iff
      fun a b ha hb => Api.clash_iff.2 (.inl ((beq_iff_eq.1 ha).trans (beq_iff_eq.1 hb).symm)),
        beq_iff_eq]
  simp only [Option.bind_eq_some_iff, Option.map_eq_some_iff, hkey, hapi, Prod.mk.injEq]
  constructor
  · rintro ⟨k, hk, a, ha, rfl, rfl⟩
    exact ⟨hk, ha⟩
  · exact fun ⟨hk, ha⟩ => ⟨key, hk, api, ha, rfl, rfl⟩

theorem authenticate_ends (h : Steady t s) : (authenticate cfg presentedKey).Ends
    (fun r s₁ => Untouched t s s₁ ∧ Authentic cfg s.db t presentedKey r.1 r.2)
    (fun _ s₁ => Untouched t s s₁ ∧ ∀ key api, ¬ Authentic cfg s.db t presentedKey key api) s := by
  unfold authenticate
  cases hf : presentedKey.filter fun raw => raw != "" with
  | none =>
    refine Prog.ends_raise ⟨.refl h, fun key api ha => ?_⟩
    obtain ⟨raw, rfl, hne, -⟩ := ha.presented
    simp [hne] at hf
  | some raw =>
    obtain ⟨hraw, hne⟩ := Option.filter_eq_some_iff.1 hf
    have hne : raw ≠ "" := by simpa using hne
    have hfound : ∀ {key api}, Authentic cfg s.db t presentedKey key api →
        (key ∈ s.db.apiKeys.rows ∧ key.keyHash = cfg.hashToken raw) ∧ api ∈ s.db.apis.rows ∧
            api.id = key.apiId := by
      intro key api ha
      obtain ⟨raw', hraw', -, hhash⟩ := ha.presented
      obtain rfl : raw' = raw := Option.some.inj (hraw'.symm.trans hraw)
      exact ⟨⟨ha.key_mem, hhash⟩, ha.api_mem, ha.api_id⟩
    refine Prog.Ends.bind (Q := fun row s₁ => s = s₁ ∧ ∀ key api, row = some (key, api) ↔
      (key ∈ s.db.apiKeys.rows ∧ key.keyHash = cfg.hashToken raw) ∧ api ∈ s.db.apis.rows ∧
        api.id = key.apiId)
      (Prog.ends_query ⟨rfl, fun _ _ => keyByHash_iff⟩) ?_
    rintro row _ ⟨rfl, hrow⟩
    cases row with
    | none => exact Prog.ends_raise ⟨.refl h, fun key api ha => by cases (hrow key api).2 (hfound ha)⟩
    | some r =>
      obtain ⟨key, api⟩ := r
      obtain ⟨⟨hkey, hhash⟩, hapi, hid⟩ := (hrow key api).1 rfl
      -- the row is the only one that the presented key can be
      have honly : ∀ {key' api'}, Authentic cfg s.db t presentedKey key' api' → key' = key ∧
          api' = api := by
        intro key' api' ha
        have := (hrow key' api').2 (hfound ha)
        simp only [Option.some.injEq, Prod.mk.injEq] at this
        exact ⟨this.1.symm, this.2.symm⟩
      refine (now_ends h).bind ?_
      rintro _ s₁ ⟨rfl, hs⟩
      dsimp only
      by_cases hvalid : key.isValidAt t = true
      · obtain ⟨hrev, hexp⟩ := ApiKey.isValidAt_iff.1 hvalid
        rw [hvalid, if_neg (by simp)]
        by_cases hactive : api.isActive = true
        · rw [hactive, if_neg (by simp)]
          exact Prog.ends_ret ⟨hs, ⟨raw, hraw, hne, hhash⟩, hkey, hrev, hexp, hapi, hid, hactive⟩
        · rw [if_pos (by simpa using hactive)]
          refine Prog.ends_raise ⟨hs, fun key' api' ha => hactive ?_⟩
          rw [← (honly ha).2]
          exact ha.api_active
      · rw [if_pos (by simpa using hvalid)]
        refine Prog.ends_raise ⟨hs, fun key' api' ha => hvalid (ApiKey.isValidAt_iff.2 ?_)⟩
        rw [← (honly ha).1]
        exact ⟨ha.not_revoked, ha.not_expired⟩

theorem resolve_ends (h : Steady t s) : (resolve cfg req presentedKey).Ends
    (fun r s₁ => Untouched t s s₁ ∧ Routes cfg s.db t req presentedKey r.1 r.2.1 r.2.2)
    (fun _ s₁ => Untouched t s s₁ ∧ ∀ key api version,
        ¬ Routes cfg s.db t req presentedKey key api version) s := by
  unfold resolve
  refine Prog.Ends.bind ((authenticate_ends h).mono (fun _ _ hr => hr) fun e s₁ he =>
    ⟨he.1, fun key api version hr => he.2 key api hr.toAuthentic⟩) ?_
  rintro ⟨key, api⟩ s₁ ⟨hs, ha⟩
  dsimp only at ha ⊢
  by_cases hslug : api.slug = req.apiSlug
  · rw [if_neg (not_not.2 hslug)]
    have hversion : ∀ v,
        (s₁.db.apiVersions.one fun v => v.apiId == api.id && v.version == req.version) = some v ↔
        v ∈ s.db.apiVersions.rows ∧ v.apiId = api.id ∧ v.version = req.version := by
      intro v
      rw [hs.db, Table.one_iff fun a b ha hb => ?_]
      · simp
      · simp only [Bool.and_eq_true, beq_iff_eq] at ha hb
        exact ApiVersion.clash_iff.2 (.inr ⟨ha.1.trans hb.1.symm, ha.2.trans hb.2.symm⟩)
    refine Prog.Ends.bind (Q := fun row s₂ => s₁ = s₂ ∧ row = s₁.db.apiVersions.one fun v =>
      v.apiId == api.id && v.version == req.version) (Prog.ends_query ⟨rfl, rfl⟩) ?_
    rintro _ _ ⟨rfl, rfl⟩
    split
    · rename_i hnone
      refine Prog.ends_raise ⟨hs, fun key' api' v hr => ?_⟩
      obtain ⟨rfl, rfl⟩ := ha.unique hr.toAuthentic
      rw [(hversion v).2 ⟨hr.version_mem, hr.version_api, hr.version_name⟩] at hnone
      simp [hr.version_active] at hnone
    · rename_i v hsome
      obtain ⟨hv, hactive⟩ := Option.filter_eq_some_iff.1 hsome
      obtain ⟨hmem, hid, hname⟩ := (hversion v).1 hv
      exact Prog.ends_ret ⟨hs, ha, hslug, hmem, hid, hname, hactive⟩
  · rw [if_pos hslug]
    refine Prog.ends_raise ⟨hs, fun key' api' v hr => hslug ?_⟩
    rw [← (ha.unique hr.toAuthentic).2]
    exact hr.slug

/-! ### The rate limit -/

theorem check_result (algorithm : RateLimitAlgorithm) (keys : RedisKey) (spec : RateLimitSpec)
    (time : ℚ) (n : Nat) (redisTime : Millis) (limits : LimiterStore) :
    (algorithm.check Double.round keys spec time n redisTime limits).map (·.1) =
        (algorithm.check Double.round keys spec time 0 redisTime limits).map (·.1) := by
  cases algorithm with
  | fixedWindow => rfl
  | tokenBucket => rfl
  | slidingWindow =>
    unfold RateLimitAlgorithm.check SlidingWindowLimiter.check slidingWindowLua
    dsimp only [Except.map]
    split <;> rfl

theorem redisEval_ends {α : Type}
    {script : Millis → LimiterStore → Except Failure (α × LimiterStore)} (h : Steady t s) :
    (redisEval script).Ends
      (fun a s₁ => Still t s s₁ ∧ (script (Time.millis t) s.world.outside.limits).map (·.1) = .ok a)
      (fun e s₁ => Still t s s₁ ∧ (script (Time.millis t) s.world.outside.limits).map (·.1) =
          .error e) s := by
  have ht : max s.world.clock (s.envs 0).time = t := h.nowAt_eq
  unfold redisEval
  refine Prog.Ends.bind
    (Q := fun r s₁ => Still t s s₁ ∧ (script (Time.millis t) s.world.outside.limits).map (·.1) = r)
    (Prog.ends_attempt ?_) fun r s₁ hr => ?_
  · dsimp only
    rw [ht]
    have hsteady : ∀ w : World PlatformOutside, w.clock ≤ t → Steady t (s.step w) :=
      fun w hw => ⟨hw, fun n => h.2 (n + 1)⟩
    cases hs : script (Time.millis t) s.world.outside.limits with
    | error e => exact ⟨⟨⟨hsteady _ h.1, rfl, rfl⟩, rfl⟩, rfl⟩
    | ok r => exact ⟨⟨⟨hsteady _ (le_refl t), rfl, rfl⟩, rfl⟩, rfl⟩
  · cases r with
    | ok a => exact hr
    | error e => exact hr

theorem checkLimit_ends {algorithm : RateLimitAlgorithm} {keys : RedisKey} {spec : RateLimitSpec}
    (h : Steady t s) :
    (checkLimit algorithm keys spec).Ends
      (fun r s₁ => Still t s s₁ ∧
        (algorithm.check Double.round keys spec (Time.unix t) 0
          (Time.millis t) s.world.outside.limits).map (·.1) = .ok r)
      (fun e s₁ => Still t s s₁ ∧
        (algorithm.check Double.round keys spec (Time.unix t) 0
            (Time.millis t) s.world.outside.limits).map (·.1) = .error e) s := by
  unfold checkLimit
  cases algorithm with
  | fixedWindow => exact redisEval_ends h
  | tokenBucket =>
    refine (now_ends h).bind fun time s₁ hs => ?_
    obtain ⟨rfl, hs⟩ := hs
    refine (redisEval_ends hs.steady).mono (fun r s₂ hr => ⟨hs.toStill.trans hr.1, ?_⟩)
      fun e s₂ he => ⟨hs.toStill.trans he.1, ?_⟩
    · rw [← hs.limits]
      exact hr.2
    · rw [← hs.limits]
      exact he.2
  | slidingWindow =>
    refine (now_ends h).bind fun time s₁ hs => ?_
    obtain ⟨rfl, hs⟩ := hs
    refine Prog.Ends.bind (Q := fun _ s₂ => Untouched t s s₂) (Prog.ends_ask ?_) fun n s₂ hs₂ => ?_
    · exact hs.trans ⟨⟨⟨⟨hs.steady.1, fun n => hs.steady.2 (n + 1)⟩, rfl, rfl⟩, rfl⟩, rfl⟩
    · have hresult :=
        check_result .slidingWindow keys spec (Time.unix t) n (Time.millis t) s.world.outside.limits
      refine (redisEval_ends hs₂.steady).mono (fun r s₃ hr => ⟨hs₂.toStill.trans hr.1, ?_⟩)
        fun e s₃ he => ⟨hs₂.toStill.trans he.1, ?_⟩
      · rw [← hresult, ← hs₂.limits]
        exact hr.2
      · rw [← hresult, ← hs₂.limits]
        exact he.2

theorem enforceRateLimit_ends {apiId apiKeyId : Uuid} (h : Steady t s) :
    (enforceRateLimit apiId apiKeyId).Ends
    (fun _ s₁ => Still t s s₁ ∧ LimitAllows s.db t s.world.outside.limits apiId apiKeyId)
    (fun _ s₁ => Still t s s₁ ∧ ¬ LimitAllows s.db t s.world.outside.limits apiId apiKeyId) s := by
  unfold enforceRateLimit
  have hrule : ∀ r, (s.db.rateLimitRules.one fun r => r.apiId == apiId) = some r ↔
      r ∈ s.db.rateLimitRules.rows ∧ r.apiId = apiId := by
    intro r
    rw [Table.one_iff
      fun a b ha hb => RateLimitRule.clash_iff.2
        (.inr ((beq_iff_eq.1 ha).trans (beq_iff_eq.1 hb).symm)),
      beq_iff_eq]
  refine Prog.Ends.bind
    (Q := fun row s₁ => s = s₁ ∧ row = s.db.rateLimitRules.one fun r => r.apiId == apiId)
    (Prog.ends_query ⟨rfl, rfl⟩) ?_
  rintro row _ ⟨rfl, hrow⟩
  cases row with
  | none =>
    refine Prog.ends_ret ⟨(Untouched.refl h).toStill, fun rule hmem hid => ?_⟩
    rw [(hrule rule).2 ⟨hmem, hid⟩] at hrow
    cases hrow
  | some rule =>
    have hmem := (hrule rule).1 hrow.symm
    refine Prog.Ends.bind
      ((checkLimit_ends h).mono (fun _ _ hr => hr) fun e s₁ he => ⟨he.1, fun hallows => ?_⟩)
      fun result s₁ hr => ?_
    · obtain ⟨result, hresult, -⟩ := hallows rule hmem.1 hmem.2
      rw [he.2] at hresult
      cases hresult
    · obtain ⟨hs, hresult⟩ := hr
      by_cases hallowed : result.allowed = true
      · rw [hallowed, if_neg (by simp)]
        refine Prog.ends_ret ⟨hs, fun rule' hmem' hid => ?_⟩
        rw [(hrule rule').2 ⟨hmem', hid⟩, Option.some.injEq] at hrow
        rw [← hrow]
        exact ⟨result, hresult, hallowed⟩
      · rw [if_pos (by simpa using hallowed)]
        refine Prog.ends_raise ⟨hs, fun hallows => hallowed ?_⟩
        obtain ⟨result', hresult', hallowed'⟩ := hallows rule hmem.1 hmem.2
        rw [hresult, Except.ok.injEq] at hresult'
        rwa [hresult']

/-! ### The quotas -/

theorem rollbackQuota_ends {apiKeyId : Uuid} {E : Failure → Session platformTables.backend → Prop}
    (periods : List QuotaPeriod)
    (h : Steady t s) : (rollbackQuota apiKeyId periods).Ends (fun _ s₁ => Silent t s s₁) E s := by
  induction periods generalizing s with
  | nil => exact (Untouched.refl h).toSilent
  | cons p periods ih =>
    unfold rollbackQuota
    refine ((QuotaEnforcer.rollback_ends apiKeyId p s).mono (fun _ _ hr => hr)
      fun _ _ he => he.elim).bind fun _ s₁ hr => ?_
    have hs : Silent t s s₁ :=
      ⟨h.later hr.later (le_of_eq (hr.clock.trans h.nextAt_eq)), hr.later.db, by rw [hr.outside]⟩
    exact (ih hs.steady).mono (fun _ _ hs' => hs.trans hs') fun _ _ he => he

/-- The loop ends without an exception exactly if none of the counters, as they were at its start,
is at its limit; the counters are different ones. -/
theorem consumeEach_ends {apiKeyId : Uuid} (qs : List Quota) (consumed : List QuotaPeriod)
    (h : Steady t s) (hd : (qs.map (·.period)).Nodup) : (consumeEach apiKeyId qs consumed).Ends
    (fun _ s₁ => Silent t s s₁ ∧ ∀ q ∈ qs,
      (s.world.redis.get t (counterKey t apiKeyId q.period)).getD 0 + 1 ≤ q.maxRequests)
    (fun _ s₁ => Silent t s s₁ ∧ ¬ ∀ q ∈ qs,
      (s.world.redis.get t (counterKey t apiKeyId q.period)).getD 0 + 1 ≤ q.maxRequests)
    s := by
  induction qs generalizing s consumed with
  | nil => exact ⟨(Untouched.refl h).toSilent, by simp⟩
  | cons q qs ih =>
    obtain ⟨hnew, hd⟩ := List.nodup_cons.1 hd
    unfold consumeEach
    refine ((QuotaEnforcer.consume_ends apiKeyId q.period q.maxRequests s).mono (fun _ _ hr => hr)
      fun _ _ he => he.elim).bind
      fun check s₁ hr => ?_
    obtain ⟨hcheck, htakes⟩ := hr
    have hclock : s₁.world.clock ≤ t := by
      rcases htakes.clock with hc | hc
      · exact le_of_eq (hc.trans h.nextAt_eq)
      · rw [hc, h.nextAt_eq, h.2 2]
        exact le_of_eq (max_self t)
    have hs : Silent t s s₁ := ⟨h.later htakes.later hclock, htakes.later.db, by rw [htakes.outside]⟩
    have hused := htakes.used_eq
    rw [h.nowAt_eq, h.nextAt_eq] at hused
    have hexceeded : check.exceeded = true ↔
        q.maxRequests < (s.world.redis.get t (counterKey t apiKeyId q.period)).getD 0 + 1 := by
      rw [hcheck, ← hused]
      simp [QuotaCheck.exceeded]
    have hothers : ∀ q' ∈ qs, (s₁.world.redis.get t (counterKey t apiKeyId q'.period)).getD 0 =
        (s.world.redis.get t (counterKey t apiKeyId q'.period)).getD 0 := by
      intro q' hq'
      rw [Store.get_congr (htakes.others _ ?_)]
      rw [h.nowAt_eq]
      intro he
      exact hnew (List.mem_map.2 ⟨q', hq', (counterKey_eq_iff.1 he).2⟩)
    by_cases hc : check.exceeded = true
    · rw [if_pos hc]
      refine (rollbackQuota_ends _ hs.steady).bind
        fun _ s₂ hs₂ => Prog.ends_raise ⟨hs.trans hs₂, fun hall => ?_⟩
      have := hall q List.mem_cons_self
      have := hexceeded.1 hc
      omega
    · rw [if_neg hc]
      have hq := not_lt.1 (mt hexceeded.2 hc)
      refine (ih _ hs.steady hd).mono (fun _ s₂ hr => ⟨hs.trans hr.1, fun q' hq' => ?_⟩) fun _ s₂ he =>
        ⟨hs.trans he.1, fun hall => he.2 fun q' hq' => ?_⟩
      · rcases List.mem_cons.1 hq' with rfl | hq'
        · exact hq
        · rw [← hothers q' hq']
          exact hr.2 q' hq'
      · rw [hothers q' hq']
        exact hall q' (List.mem_cons_of_mem _ hq')

theorem enforceQuota_ends {apiId apiKeyId : Uuid} (h : Steady t s) : (enforceQuota apiId apiKeyId).Ends
    (fun _ s₁ => Silent t s s₁ ∧ QuotasLeft s.db t s.world.redis apiId apiKeyId)
    (fun _ s₁ => Silent t s s₁ ∧ ¬ QuotasLeft s.db t s.world.redis apiId apiKeyId) s := by
  unfold enforceQuota
  refine Prog.Ends.bind
    (Q := fun qs s₁ => qs.Perm (s.db.quotas.select fun q => q.apiId == apiId) ∧ Untouched t s s₁) ?_
    fun qs s₁ hqs => ?_
  · refine Prog.Ends.bind
      (Q := fun rows s₁ => s = s₁ ∧ rows = s.db.quotas.select fun q => q.apiId == apiId)
      (Prog.ends_query ⟨rfl, rfl⟩) ?_
    rintro _ _ ⟨rfl, rfl⟩
    exact Prog.ends_ask ⟨List.rotate_perm _ _, ⟨⟨⟨h.1, fun n => h.2 (n + 1)⟩, rfl, rfl⟩, rfl⟩, rfl⟩
  · obtain ⟨hperm, hs⟩ := hqs
    have hmem : ∀ q, q ∈ qs ↔ q ∈ s.db.quotas.rows ∧ q.apiId = apiId := by
      intro q
      rw [hperm.mem_iff, Table.mem_select, beq_iff_eq]
    have hd : (qs.map (·.period)).Nodup := (hperm.map _).nodup_iff.2 (periods_nodup s.db apiId)
    refine (consumeEach_ends qs [] hs.steady hd).mono
      (fun _ s₂ hr => ⟨hs.toSilent.trans hr.1, fun q hq hid => ?_⟩)
      fun _ s₂ he => ⟨hs.toSilent.trans he.1, fun hall => he.2 fun q hq => ?_⟩
    · rw [← hs.redis]
      exact hr.2 q ((hmem q).2 ⟨hq, hid⟩)
    · rw [hs.redis]
      exact hall q ((hmem q).1 hq).1 ((hmem q).1 hq).2

/-! ### The whole call -/

/-- `_forward` sends one request, whatever comes back. -/
theorem forward_ends {E : Failure → Session platformTables.backend → Prop} (h : Steady t s) :
    (forward cfg version.upstreamBaseUrl req).Ends (fun _ s₁ => Steady t s₁ ∧
      s₁.world.outside.sent = s.world.outside.sent ++ [upstreamRequest version req]) E s := by
  unfold forward
  refine Prog.Ends.bind (Q := fun _ s₁ => Untouched t s s₁)
    (Prog.ends_ask ⟨⟨⟨⟨h.1, fun n => h.2 (n + 1)⟩, rfl, rfl⟩, rfl⟩, rfl⟩) fun start s₁ hs => ?_
  refine Prog.Ends.bind (Q := fun _ s₂ => Steady t s₂ ∧
    s₂.world.outside.sent = s.world.outside.sent ++
      [upstreamRequest version req]) (Prog.ends_ask ⟨?_, ?_⟩)
    fun upstream s₂ hs₂ => ?_
  · exact ⟨le_of_eq hs.steady.nowAt_eq, fun n => hs.steady.2 (n + 1)⟩
  · show s₁.world.outside.sent ++ _ = _
    rw [hs.sent]
    rfl
  · cases upstream with
    | error e => exact Prog.ends_ret hs₂
    | ok upstream =>
      exact Prog.Ends.bind (Q := fun _ s₃ => Steady t s₃ ∧
        s₃.world.outside.sent = s.world.outside.sent ++ [upstreamRequest version req])
        (Prog.ends_ask ⟨⟨hs₂.1.1, fun n => hs₂.1.2 (n + 1)⟩, hs₂.2⟩) fun _ _ hs₃ => Prog.ends_ret hs₃

/-- How far a call gets. -/
inductive Verdict (cfg : GatewayConfig) (t : Time) (req : IncomingRequest)
    (presentedKey : Option String)
    (s s₁ : Session platformTables.backend) : Prop
  | unrouted (h : ∀ key api version, ¬ Routes cfg s.db t req presentedKey key api version)
    (hs : Untouched t s s₁)
  | limited {key : ApiKey} {api : Api} {version : ApiVersion}
      (h : Routes cfg s.db t req presentedKey key api version)
      (hlimit : ¬ LimitAllows s.db t s.world.outside.limits api.id key.id) (hs : Still t s s₁)
  | overQuota {key : ApiKey} {api : Api} {version : ApiVersion}
      (h : Routes cfg s.db t req presentedKey key api version)
      (hlimit : LimitAllows s.db t s.world.outside.limits api.id key.id)
      (hquota : ¬ QuotasLeft s.db t s.world.redis api.id key.id) (hs : Silent t s s₁)
  | sent {key : ApiKey} {api : Api} {version : ApiVersion}
      (h : Routes cfg s.db t req presentedKey key api version)
      (hlimit : LimitAllows s.db t s.world.outside.limits api.id key.id)
      (hquota : QuotasLeft s.db t s.world.redis api.id key.id)
      (hs : s₁.world.outside.sent = s.world.outside.sent ++ [upstreamRequest version req])

theorem handle_ends (h : Steady t s) :
    (handle cfg req presentedKey).Ends (fun _ s₁ => Verdict cfg t req presentedKey s s₁)
    (fun _ s₁ => Verdict cfg t req presentedKey s s₁) s := by
  unfold handle
  refine Prog.Ends.bind ((resolve_ends h).mono (fun _ _ hr => hr) fun _ s₁ he => .unrouted he.2 he.1) ?_
  rintro ⟨key, api, version⟩ s₁ ⟨hs, hroute⟩
  dsimp only at hroute ⊢
  refine Prog.Ends.bind
    ((enforceRateLimit_ends hs.steady).mono (fun _ _ hr => hr) fun _ s₂ he => ?_)
      fun rateInfo s₂ hlimit => ?_
  · rw [hs.db, hs.limits] at he
    exact .limited hroute he.2 (hs.toStill.trans he.1)
  rw [hs.db, hs.limits] at hlimit
  obtain ⟨hs₂, hlimit⟩ := hlimit
  replace hs₂ := hs.toStill.trans hs₂
  refine Prog.Ends.bind ((enforceQuota_ends hs₂.steady).mono (fun _ _ hr => hr) fun _ s₃ he => ?_)
    fun consumed s₃ hquota => ?_
  · rw [hs₂.db, hs₂.redis] at he
    exact .overQuota hroute hlimit he.2 (hs₂.toSilent.trans he.1)
  rw [hs₂.db, hs₂.redis] at hquota
  obtain ⟨hs₃, hquota⟩ := hquota
  replace hs₃ := hs₂.toSilent.trans hs₃
  refine (forward_ends hs₃.steady).bind fun result s₄ hs₄ => ?_
  obtain ⟨hsteady, hsent⟩ := hs₄
  rw [hs₃.sent] at hsent
  cases result with
  | error e =>
    dsimp only
    split
    · refine (rollbackQuota_ends consumed hsteady).bind
        fun _ s₅ hs₅ => Prog.ends_raise (.sent hroute hlimit hquota ?_)
      exact hs₅.sent.trans hsent
    · exact Prog.ends_raise (.sent hroute hlimit hquota hsent)
  | ok result =>
    refine (now_ends hsteady).bind fun _ s₅ hs₅ => Prog.ends_ret (.sent hroute hlimit hquota ?_)
    exact hs₅.2.sent.trans hsent

/-- The call is let through to the upstream of the version. -/
structure Admitted (cfg : GatewayConfig) (t : Time) (s : Session platformTables.backend)
    (req : IncomingRequest) (presentedKey : Option String) (key : ApiKey) (api : Api)
    (version : ApiVersion) : Prop where
  routes : Routes cfg s.db t req presentedKey key api version
  limit : LimitAllows s.db t s.world.outside.limits api.id key.id
  quotas : QuotasLeft s.db t s.world.redis api.id key.id

/-- A call sends a request upstream exactly if its key is valid, the path names the key's API and an
active version of it, the rate limit allows it and no quota is exceeded; it goes to the upstream of
that version. Without a route no key of Redis is touched, and no quota counter if the rate limiter
rejects. -/
theorem gateway_admission (cfg : GatewayConfig) (req : IncomingRequest)
    (presentedKey : Option String) (t : Time) (s : Session platformTables.backend)
    (h : Steady t s) :
    let s' := ((handle cfg req presentedKey).eval s).2
    ((∃ r, s'.world.outside.sent = s.world.outside.sent ++ [r]) ↔
      ∃ key api version, Admitted cfg t s req presentedKey key api version) ∧
    (∀ key api version, Admitted cfg t s req presentedKey key api version →
      s'.world.outside.sent = s.world.outside.sent ++ [upstreamRequest version req] ∧
      ReachesUpstream version.upstreamBaseUrl req.upstreamPath req.queryString
        (upstreamRequest version req).url) ∧
    ((¬ ∃ key api version, Admitted cfg t s req presentedKey key api version) →
      s'.world.outside.sent = s.world.outside.sent) ∧
    ((¬ ∃ key api version, Routes cfg s.db t req presentedKey key api version) →
      s'.world.redis = s.world.redis ∧ s'.world.outside.limits = s.world.outside.limits) ∧
    (∀ key api version, Routes cfg s.db t req presentedKey key api version →
      ¬ LimitAllows s.db t s.world.outside.limits api.id key.id → s'.world.redis = s.world.redis) := by
  intro s'
  have hverdict : Verdict cfg t req presentedKey s s' := Prog.Ends.snd (handle_ends h)
  have hsilent : s'.world.outside.sent = s.world.outside.sent → ¬ ∃ r,
      s'.world.outside.sent = s.world.outside.sent ++ [r] := by
    rintro he ⟨r, hr⟩
    rw [he] at hr
    simp at hr
  cases hverdict with
  | unrouted hno hs =>
    have hnone : ¬ ∃ key api version, Admitted cfg t s req presentedKey key api version :=
      fun ⟨key, api, version, ha⟩ => hno key api version ha.routes
    exact ⟨iff_of_false (hsilent hs.sent) hnone,
      fun key api version ha => absurd ⟨key, api, version, ha⟩ hnone,
      fun _ => hs.sent, fun _ => ⟨hs.redis, hs.limits⟩, fun _ _ _ _ _ => hs.redis⟩
  | @limited key api version hroute hlimit hs =>
    have hnone : ¬ ∃ key api version, Admitted cfg t s req presentedKey key api version := by
      rintro ⟨key', api', version', ha⟩
      obtain ⟨rfl, rfl, -⟩ := hroute.unique ha.routes
      exact hlimit ha.limit
    exact ⟨iff_of_false (hsilent hs.sent) hnone,
      fun key api version ha => absurd ⟨key, api, version, ha⟩ hnone,
      fun _ => hs.sent, fun hno => absurd ⟨key, api, version, hroute⟩ hno, fun _ _ _ _ _ => hs.redis⟩
  | @overQuota key api version hroute hlimit hquota hs =>
    have hnone : ¬ ∃ key api version, Admitted cfg t s req presentedKey key api version := by
      rintro ⟨key', api', version', ha⟩
      obtain ⟨rfl, rfl, -⟩ := hroute.unique ha.routes
      exact hquota ha.quotas
    refine ⟨iff_of_false (hsilent hs.sent) hnone,
      fun key api version ha => absurd ⟨key, api, version, ha⟩ hnone,
      fun _ => hs.sent,
        fun hno => absurd ⟨key, api, version, hroute⟩ hno, fun key' api' version' hroute' hl => ?_⟩
    obtain ⟨rfl, rfl, -⟩ := hroute.unique hroute'
    exact absurd hlimit hl
  | @sent key api version hroute hlimit hquota hs =>
    have hadmitted : Admitted cfg t s req presentedKey key api version := ⟨hroute, hlimit, hquota⟩
    refine ⟨iff_of_true ⟨_, hs⟩ ⟨key, api, version, hadmitted⟩, fun key' api' version' ha => ?_,
      fun hnone => absurd ⟨key, api, version, hadmitted⟩ hnone,
        fun hno => absurd ⟨key, api, version, hroute⟩ hno,
      fun key' api' version' hroute' hl => ?_⟩
    · obtain ⟨rfl, rfl, rfl⟩ := hroute.unique ha.routes
      exact ⟨hs, reachesUpstream_upstreamUrl _ _ _⟩
    · obtain ⟨rfl, rfl, -⟩ := hroute.unique hroute'
      exact absurd hlimit hl

end

theorem gateway_admission_sample :
    let s' := ((handle sampleGatewayConfig sampleIncoming (some "secret")).eval sampleGatewaySession).2
    ((∃ r, s'.world.outside.sent = sampleGatewaySession.world.outside.sent ++ [r]) ↔ ∃ key api version,
      Admitted sampleGatewayConfig (epoch + 1) sampleGatewaySession sampleIncoming
        (some "secret") key api version) ∧
    (∀ key api version, Admitted sampleGatewayConfig (epoch + 1) sampleGatewaySession sampleIncoming
      (some "secret") key api version →
      s'.world.outside.sent = sampleGatewaySession.world.outside.sent ++
        [upstreamRequest version sampleIncoming] ∧
      ReachesUpstream version.upstreamBaseUrl sampleIncoming.upstreamPath sampleIncoming.queryString
        (upstreamRequest version sampleIncoming).url) ∧
    ((¬ ∃ key api version,
        Admitted sampleGatewayConfig (epoch + 1) sampleGatewaySession sampleIncoming
          (some "secret") key api version) →
      s'.world.outside.sent = sampleGatewaySession.world.outside.sent) ∧
    ((¬ ∃ key api version,
        Routes sampleGatewayConfig sampleGatewaySession.db (epoch + 1) sampleIncoming
          (some "secret") key api version) →
      s'.world.redis = sampleGatewaySession.world.redis ∧
        s'.world.outside.limits = sampleGatewaySession.world.outside.limits) ∧
    (∀ key api version,
      Routes sampleGatewayConfig sampleGatewaySession.db (epoch + 1) sampleIncoming
        (some "secret") key api version →
      ¬ LimitAllows sampleGatewaySession.db (epoch + 1) sampleGatewaySession.world.outside.limits
        api.id key.id →
      s'.world.redis = sampleGatewaySession.world.redis) :=
  gateway_admission sampleGatewayConfig sampleIncoming (some "secret") (epoch + 1) sampleGatewaySession
    ⟨by decide, fun _ => rfl⟩

end TrafficPlatform
