import TrafficPlatform.Gateway.Effects
import TrafficPlatform.Management.Columns
import TrafficPlatform.RateLimit.ExactLog
import TrafficPlatform.RateLimit.FixedWindow
import TrafficPlatform.RateLimit.TokenBucket

/-!
# Rate limits that are reconfigured

A run of rate-limit checks on one key and of changes of the rules. What a limiter has left in Redis
under an old rule is read under a new one: the sliding window and the token bucket block for no
longer than the window in force, since no entry is later than the check and no level is negative
(`Tame`). The counter of the fixed window keeps the expiry that the rule it was created under gave
it, and blocks until then.
-/

namespace TrafficPlatform
open Kit

/-- `now_ms` at a clock reading. -/
def Time.nowMs (t : Time) : Int := pyInt (t.unix * 1000)

/-- The limiters' keys hold no entry of a later time, and no negative level. -/
structure Tame (key : RedisKey) (clock : Time) (s : LimiterStore) : Prop where
  zsets : ∀ e, s.zsets (windowKey key) = some e → ∀ x ∈ e.value, x.1 ≤ clock.nowMs
  hashes : ∀ e, s.hashes (tokenKey key) = some e → 0 ≤ e.value.tokens

/-- A counter that holds `requests` hits expires within the window. -/
def ExpiresInWindow (key : RedisKey) (spec : RateLimitSpec) (time : Millis) (s : LimiterStore) : Prop :=
  ∀ e, s.counters.live time (fixedKey key) = some e → spec.requests ≤ e.value →
    ∀ t, e.expiry = some t → t - time ≤ spec.windowSeconds * 1000

/-- For one request a window, the refill from empty is computed to take longer than the window: the
inverse of the double nearest to 1/49 is more than 49. -/
def Overlong (windowSeconds : Int) : Prop :=
  (windowSeconds * 1000 : ℚ) < Double.round (Double.round (1 / Double.round (1 / windowSeconds)) * 1000)

instance (windowSeconds : Int) : Decidable (Overlong windowSeconds) :=
  inferInstanceAs (Decidable (_ < _))

example : Overlong 49 ∧ ¬ Overlong 60 := by decide +kernel

/-- A bucket with this level is not empty where its refill is overlong. -/
def RefillsInWindow (spec : RateLimitSpec) (level : ℚ) : Prop :=
  spec.requests = 1 → Overlong spec.windowSeconds → 1 / 2 ^ 54 < level

/-- A blocked check reports no more than the window. -/
def RateLimitResult.Prompt (spec : RateLimitSpec) (r : RateLimitResult) : Prop :=
  r.allowed = false → r.retryAfter ≤ spec.windowSeconds

section
variable {key : RedisKey} {spec : RateLimitSpec} {s : LimiterStore} {clock clock' : Time}
    {time : Millis}

theorem pyInt_mono {x y : ℚ} (h : x ≤ y) : pyInt x ≤ pyInt y := by
  unfold pyInt
  split <;> rename_i hx <;> split <;> rename_i hy
  · exact Int.floor_le_floor h
  · exact absurd (hx.trans h) hy
  · have hceil : ⌈x⌉ ≤ 0 := Int.ceil_le.2 (by push_cast; linarith)
    exact hceil.trans (Int.floor_nonneg.2 hy)
  · exact Int.ceil_le_ceil h

theorem Time.nowMs_mono (h : clock ≤ clock') : clock.nowMs ≤ clock'.nowMs := by
  have hcast : ((clock : ℕ) : ℚ) ≤ (clock' : ℕ) := by exact_mod_cast h
  have hpos : (0 : ℚ) < (second : ℚ) := by norm_num [second]
  refine pyInt_mono (mul_le_mul_of_nonneg_right ?_ (by norm_num))
  exact div_le_div_of_nonneg_right (by linarith) hpos.le

theorem Tame.mono (h : Tame key clock s) (hle : clock ≤ clock') : Tame key clock' s :=
  ⟨fun e he x hx => (h.zsets e he x hx).trans (Time.nowMs_mono hle), h.hashes⟩

theorem msToSecondsCeil_le {ms w : Int} (hw : 0 ≤ w) : msToSecondsCeil ms ≤ w ↔ ms ≤ w * 1000 := by
  unfold msToSecondsCeil
  omega

/-! ### One check -/

theorem pttl_set {z : Store RedisKey Int Millis} {k : RedisKey} {e : Entry Int Millis}
    (h : z.live time k = some e) (v : Int) :
    pttl time k (z.set time k v) = match e.expiry with
      | none => -1
      | some t => t - time := by
  rw [pttl, Store.live_set_self, h]
  rfl

/-- The fixed window blocks for longer than the window exactly when its counter outlives it. -/
theorem fixed_prompt_iff (h : spec.Valid) : (FixedWindowLimiter.check key spec time s).1.Prompt spec ↔
    ExpiresInWindow key spec time s := by
  have hreq := h.requests_pos
  have hwin := h.window_pos
  unfold RateLimitResult.Prompt ExpiresInWindow FixedWindowLimiter.check fixedWindowLua
  rw [← fixedKey]
  dsimp only
  cases hlive : s.counters.live time (fixedKey key) with
  | none =>
    have hget : s.counters.get time (fixedKey key) = none := by rw [Store.get, hlive]; rfl
    rw [hget, if_neg (by show ¬ (0 + 1 > spec.requests); omega)]
    simp
  | some e =>
    have hget : s.counters.get time (fixedKey key) = some e.value := by rw [Store.get, hlive]; rfl
    rw [hget, Option.getD_some]
    by_cases hblocked : e.value + 1 > spec.requests
    · rw [if_pos hblocked, if_neg (show ¬ e.value + 1 = 1 by omega), pttl_set hlive]
      have hle : spec.requests ≤ e.value := by omega
      simp only [bne_self_eq_false, forall_const, Option.some.injEq, forall_eq', hle,
        msToSecondsCeil_le hwin.le]
      cases e.expiry with
      | none => simp; omega
      | some t => simp
    · rw [if_neg hblocked]
      have hlt : ¬ spec.requests ≤ e.value := by omega
      simp [hlt]

/-- The sliding window blocks until the oldest entry leaves the window, and no entry is later than
the check. -/
theorem sliding_prompt (h : spec.Valid) {now : ℚ} {perfCounterNs : Nat}
    (hz : ∀ e, s.zsets (windowKey key) = some e → ∀ x ∈ e.value, x.1 ≤ pyInt (now * 1000)) :
    (SlidingWindowLimiter.check key spec now perfCounterNs time s).1.Prompt spec := by
  have hwin := h.window_pos
  unfold RateLimitResult.Prompt SlidingWindowLimiter.check slidingWindowLua
  rw [← windowKey]
  dsimp only
  split
  · simp
  · intro _
    rw [msToSecondsCeil_le hwin.le]
    dsimp only
    split
    · rename_i oldest hold
      obtain ⟨x, hx, rfl⟩ := List.mem_map.1 (List.min?_mem hold)
      have hx := (List.mem_filter.1 hx).1
      cases hlive : s.zsets.live time (windowKey key) with
      | none => rw [Store.get, hlive] at hx; cases hx
      | some e =>
        rw [Store.get, hlive] at hx
        have hle := hz e (Store.eq_of_live hlive) x hx
        show x.1 + spec.windowSeconds * 1000 - pyInt (now * 1000) ≤ spec.windowSeconds * 1000
        omega
    · exact le_refl _

/-- A check leaves entries that are no later than itself. -/
theorem sliding_zsets {now : ℚ} {perfCounterNs : Nat} {e : Entry (List (Int × Member)) Millis}
    (hz : ∀ e, s.zsets (windowKey key) = some e → ∀ x ∈ e.value, x.1 ≤ pyInt (now * 1000))
    (he : (SlidingWindowLimiter.check key spec now perfCounterNs time s).2.zsets
      (windowKey key) = some e) :
    ∀ x ∈ e.value, x.1 ≤ pyInt (now * 1000) := by
  have hkept : ∀ x ∈ zremrangebyscore (pyInt (now * 1000) - spec.windowSeconds * 1000)
      ((s.zsets.get time (windowKey key)).getD []), x.1 ≤ pyInt (now * 1000) := by
    intro x hx
    have hx := (List.mem_filter.1 hx).1
    cases hlive : s.zsets.live time (windowKey key) with
    | none => rw [Store.get, hlive] at hx; cases hx
    | some e =>
      rw [Store.get, hlive] at hx
      exact hz e (Store.eq_of_live hlive) x hx
  unfold SlidingWindowLimiter.check slidingWindowLua at he
  rw [← windowKey] at he
  dsimp only at he
  split at he
  · rw [pexpire_set_value he]
    intro x hx
    rcases List.mem_append.1 hx with hx | hx
    · exact hkept x (List.mem_filter.1 hx).1
    · rw [List.mem_singleton.1 hx]
  · rw [putZset_value he]
    exact hkept

theorem waitMs_le (h : spec.Stored) {level : ℚ} (hle : Double.round (1 - level) ≤
    spec.windowSeconds * spec.refillRate Double.round) : waitMs Double.round spec level ≤
        spec.windowSeconds * 1000 := by
  have hfl := Double.rounding_round
  have hwin := h.window_pos
  have hlt := h.window_lt
  have hquot : Double.round (Double.round (1 - level) / spec.refillRate Double.round) ≤
      spec.windowSeconds := by
    rw [← hfl.int spec.windowSeconds (abs_le.2 ⟨by omega, by omega⟩)]
    exact hfl.mono ((div_le_iff₀ (h.refillRate_pos hfl)).2 hle)
  have hexact := hfl.int (spec.windowSeconds * 1000) (abs_le.2 ⟨by omega, by omega⟩)
  push_cast at hexact
  rw [waitMs, ← hexact]
  exact hfl.mono (mul_le_mul_of_nonneg_right hquot (by norm_num))

theorem le_refillRate (h : spec.Valid) :
    spec.requests * (1 - 1 / 2 ^ 53) ≤ spec.windowSeconds * spec.refillRate Double.round := by
  have hrate := h.rate_pos
  have hwin : (0 : ℚ) < spec.windowSeconds := by exact_mod_cast h.window_pos
  have herr := (abs_le.1 (Double.round_error ((spec.requests : ℚ) / spec.windowSeconds))).1
  rw [abs_of_pos hrate] at herr
  have hle : (spec.requests : ℚ) / spec.windowSeconds *
      (1 - 1 / 2 ^ 53) ≤ spec.refillRate Double.round := by
    unfold RateLimitSpec.refillRate
    linarith
  calc (spec.requests : ℚ) * (1 - 1 / 2 ^ 53)
      = spec.windowSeconds * (spec.requests / spec.windowSeconds * (1 - 1 / 2 ^ 53)) := by field_simp
    _ ≤ spec.windowSeconds * spec.refillRate Double.round := mul_le_mul_of_nonneg_left hle hwin.le

/-- A refill to one token takes longer than the window exactly when it is overlong and starts from
empty. -/
theorem waitMs_le_iff (h : spec.Stored) {level : ℚ} (hlevel : 0 ≤ level) :
    waitMs Double.round spec level ≤ spec.windowSeconds * 1000 ↔ RefillsInWindow spec level := by
  have hfl := Double.rounding_round
  have hrate := le_refillRate h.toValid
  have hmissing : Double.round (1 - level) ≤ 1 := (hfl.mono (sub_le_self 1 hlevel)).trans_eq hfl.one
  unfold RefillsInWindow
  by_cases hone : spec.requests = 1
  · by_cases hempty : level ≤ 1 / 2 ^ 54
    · have hfull : Double.round (1 - level) = 1 :=
        le_antisymm hmissing (Double.one_le_round_iff.2 (by linarith))
      rw [waitMs, hfull, RateLimitSpec.refillRate, hone, Int.cast_one]
      simp only [forall_const, not_lt.2 hempty, imp_false, Overlong, not_lt]
    · refine iff_of_true (waitMs_le h ?_) fun _ _ => not_le.1 hempty
      have hless := Double.round_lt_one (x := 1 - level) (by linarith)
      rw [hone] at hrate
      push_cast at hrate
      linarith
  · refine iff_of_true (waitMs_le h ?_) fun hreq => absurd hreq hone
    have htwo : (2 : ℚ) ≤ spec.requests := by
      have hreq := h.requests_pos
      exact_mod_cast (show 2 ≤ spec.requests by omega)
    have hhalf : (2 : ℚ) * (1 - 1 / 2 ^ 53) ≤ spec.requests * (1 - 1 / 2 ^ 53) :=
      mul_le_mul_of_nonneg_right htwo (by norm_num)
    have hnum : (1 : ℚ) ≤ 2 * (1 - 1 / 2 ^ 53) := by norm_num
    linarith

/-- The token bucket blocks while it refills to one token. -/
theorem token_prompt_iff (h : spec.Stored)
    (hs : ∀ e, s.hashes (tokenKey key) = some e → 0 ≤ e.value.tokens) (now : ℚ) :
    ∃ (result : RateLimitResult) (s' : LimiterStore),
      TokenBucketLimiter.check Double.round key spec now time s = .ok (result, s') ∧
      (result.Prompt spec ↔ RefillsInWindow spec (levelFound Double.round key spec s ⟨now, time⟩)) ∧
      (∀ e, s'.hashes (tokenKey key) = some e → 0 ≤ e.value.tokens) ∧ s'.zsets = s.zsets := by
  have hfl := Double.rounding_round
  have hwin := h.window_pos
  have hlevel := levelFound_nonneg hfl h.toValid hs ⟨now, time⟩
  obtain ⟨hashes, hhash, hcheck⟩ :=
    token_check hfl h.toValid (Eq.refl (levelFound Double.round key spec s ⟨now, time⟩))
  generalize levelFound Double.round key spec s ⟨now, time⟩ = level at hlevel hhash hcheck ⊢
  refine ⟨_, _, hcheck, ?_, fun e he => ?_, rfl⟩
  · unfold RateLimitResult.Prompt tokenResult
    by_cases hle : 1 ≤ level
    · rw [if_pos hle]
      refine iff_of_true (by simp) fun _ _ => lt_of_lt_of_le (by norm_num) hle
    · rw [if_neg hle, ← waitMs_le_iff h hlevel]
      simp only [forall_const]
      rw [msToSecondsCeil_le hwin.le, Int.ceil_le]
      push_cast
      rfl
  · obtain rfl := Option.some.inj (hhash.symm.trans he)
    dsimp only
    split
    · exact hfl.nonneg (sub_nonneg.2 ‹_›)
    · exact hlevel

end

/-! ### A check of the gateway -/

open Gateway GatewayService

section
variable {key : RedisKey} {spec : RateLimitSpec} {s : Session platformTables.backend}

/-- Redis's clock when a script of the session runs next. -/
def scriptClock (s : Session platformTables.backend) : Time := max s.world.clock (s.envs 0).time

theorem redisEval_limits_ends {α : Type}
    {script : Millis → LimiterStore → Except Failure (α × LimiterStore)} {a : α}
    {limits : LimiterStore} {E : Failure → Session platformTables.backend → Prop}
    (h : script (scriptClock s).millis s.world.outside.limits = .ok (a, limits)) :
    (redisEval script).Ends
        (fun r s' => r = a ∧ s'.world.outside.limits = limits ∧ s'.world.clock = scriptClock s) E
            s := by
  unfold scriptClock at h ⊢
  unfold Prog.Ends redisEval Prog.attempt
  simp only [Prog.io_bind, Prog.ret_bind, Prog.eval, h]
  exact ⟨rfl, rfl, rfl⟩

theorem redisEval_limits_ok_ends {α : Type} (f : Millis → LimiterStore → α × LimiterStore)
    {E : Failure → Session platformTables.backend → Prop} :
      (redisEval fun time limits => .ok (f time limits)).Ends
      (fun r s' => r = (f (scriptClock s).millis s.world.outside.limits).1 ∧
        s'.world.outside.limits = (f (scriptClock s).millis s.world.outside.limits).2 ∧
            s'.world.clock = scriptClock s) E s :=
  redisEval_limits_ends rfl

theorem tame_now_ends {E : Failure → Session platformTables.backend → Prop} :
    (now : Platform Time).Ends (fun time s' => time = scriptClock s ∧ s'.world.clock = time ∧
      s'.world.outside = s.world.outside ∧ s'.envs 0 = s.envs 1) E s :=
  Prog.ends_ask ⟨rfl, rfl, rfl, rfl⟩

/-- What a check finds, if it is blocked, is cleared within the window: the counter of a fixed
window expires, the bucket is refilled. -/
def ClearsInWindow (algorithm : RateLimitAlgorithm) (key : RedisKey) (spec : RateLimitSpec)
    (s : Session platformTables.backend) : Prop :=
  match algorithm with
  | .fixedWindow => ExpiresInWindow key spec (scriptClock s).millis s.world.outside.limits
  | .slidingWindow => True
  | .tokenBucket => RefillsInWindow spec (levelFound Double.round key spec s.world.outside.limits
      ⟨(scriptClock s).unix, (max (scriptClock s) (s.envs 1).time).millis⟩)

/-- A check blocks for longer than the window exactly when what it finds outlives it. -/
theorem checkLimit_prompt_ends {algorithm : RateLimitAlgorithm} (h : spec.Stored)
    (ht : Tame key s.world.clock s.world.outside.limits) : (checkLimit algorithm key spec).Ends
      (fun result s' => Tame key s'.world.clock s'.world.outside.limits ∧
        (result.Prompt spec ↔ ClearsInWindow algorithm key spec s)) (fun _ _ => False) s := by
  unfold checkLimit
  cases algorithm with
  | fixedWindow =>
    refine (redisEval_limits_ok_ends _ (E := fun _ _ => False)).mono ?_ fun _ _ => id
    rintro _ s' ⟨rfl, hlimits, hclock⟩
    have hle : s.world.clock ≤ scriptClock s := le_max_left _ _
    refine ⟨?_, fixed_prompt_iff h.toValid⟩
    rw [hlimits, hclock]
    exact ⟨(ht.mono hle).zsets, ht.hashes⟩
  | slidingWindow =>
    refine tame_now_ends.bind ?_
    rintro _ s₁ ⟨rfl, hclock₁, houtside₁, -⟩
    refine Prog.Ends.bind (Q := fun _ s₂ => s₂.world = s₁.world) (Prog.ends_ask rfl)
      fun perfCounter s₂ hw₂ => ?_
    rw [← hw₂] at hclock₁ houtside₁
    have hle : s.world.clock ≤ scriptClock s := le_max_left _ _
    have ht₂ : Tame key (scriptClock s) s₂.world.outside.limits := by rw [houtside₁]; exact ht.mono hle
    refine (redisEval_limits_ok_ends _ (E := fun _ _ => False)).mono ?_ fun _ _ => id
    rintro _ s₃ ⟨rfl, hlimits, hclock₃⟩
    have hle₃ : scriptClock s ≤ scriptClock s₂ := by rw [← hclock₁]; exact le_max_left _ _
    refine ⟨?_, iff_of_true (sliding_prompt h.toValid ht₂.zsets) trivial⟩
    rw [hlimits, hclock₃]
    exact Tame.mono ⟨fun e he => sliding_zsets ht₂.zsets he, ht₂.hashes⟩ hle₃
  | tokenBucket =>
    refine tame_now_ends.bind ?_
    rintro _ s₁ ⟨rfl, hclock₁, houtside₁, henv₁⟩
    have hle : s.world.clock ≤ scriptClock s := le_max_left _ _
    have ht₁ : Tame key (scriptClock s) s₁.world.outside.limits := by rw [houtside₁]; exact ht.mono hle
    obtain ⟨result, limits, hcheck, hprompt, hhashes, hzsets⟩ :=
      @token_prompt_iff _ _ _ ((scriptClock s₁).millis) h ht₁.hashes (scriptClock s).unix
    refine (redisEval_limits_ends (E := fun _ _ => False) hcheck).mono ?_ fun _ _ => id
    rintro _ s₂ ⟨rfl, hlimits, hclock₂⟩
    have hle₂ : scriptClock s ≤ scriptClock s₁ := by rw [← hclock₁]; exact le_max_left _ _
    rw [houtside₁,
      show scriptClock s₁ = max (scriptClock s) (s.envs 1).time by
        rw [scriptClock, hclock₁, henv₁]] at hprompt
    refine ⟨?_, hprompt⟩
    rw [hlimits, hclock₂]
    exact ⟨fun e he => (ht₁.mono hle₂).zsets e (hzsets ▸ he), hhashes⟩

/-- The seconds that a 429 tells the client to wait. -/
def retryAfter {α : Type} : Except Failure α → Option Int
  | .error (.app e) => match e.details.find? fun d => d.1 == "retry_after" with
    | some (_, .int seconds) => some seconds
    | _ => none
  | _ => none

/-- The rule that is in force for the API. -/
def ruleFor (db : PlatformDb) (apiId : Uuid) : Option RateLimitRule :=
  db.rateLimitRules.one fun r => r.apiId == apiId

theorem enforceRateLimit_none {apiId apiKeyId : Uuid} (h : ruleFor s.db apiId = none) :
    (enforceRateLimit apiId apiKeyId).eval s = (.ok none, s) := by
  unfold ruleFor at h
  unfold enforceRateLimit RateLimitRuleRepository.getForApi
  rw [Prog.eval_query, h]
  rfl

theorem enforceRateLimit_some {apiId apiKeyId : Uuid} {rule : RateLimitRule}
    (h : ruleFor s.db apiId = some rule) (hv : rule.spec.Stored)
    (ht : Tame [.uuid apiId, .uuid apiKeyId] s.world.clock s.world.outside.limits) :
    let out := (enforceRateLimit apiId apiKeyId).eval s
    Tame [.uuid apiId, .uuid apiKeyId] out.2.world.clock out.2.world.outside.limits ∧
      ((∀ seconds, retryAfter out.1 = some seconds → seconds ≤ rule.windowSeconds) ↔
        ClearsInWindow rule.algorithm [.uuid apiId, .uuid apiKeyId] rule.spec s) := by
  have hends := @checkLimit_prompt_ends _ _ _ rule.algorithm hv ht
  obtain ⟨result, s', heval, htame, hprompt⟩ := hends.exists_ok
  have hout : (enforceRateLimit apiId apiKeyId).eval s = (if !result.allowed then
      .raise (ErrorClass.rateLimitedError.errorWith "Rate limit exceeded for this API key."
        [("retry_after", .int result.retryAfter), ("limit", .int result.limit)])
    else return some (result.limit, result.remaining) : Platform (Option (Int × Int))).eval s' := by
    unfold ruleFor at h
    unfold enforceRateLimit RateLimitRuleRepository.getForApi
    rw [Prog.eval_query, h]
    dsimp only
    rw [Prog.eval_bind]
    unfold RateLimitRule.spec at heval
    rw [heval]
  dsimp only
  rw [hout, ← hprompt]
  cases hallowed : result.allowed with
  | true => exact ⟨htame, by simp [retryAfter, RateLimitResult.Prompt, hallowed]⟩
  | false =>
    refine ⟨htame, ?_⟩
    have hretry :
        retryAfter (.error
          (ErrorClass.rateLimitedError.errorWith "Rate limit exceeded for this API key."
        [("retry_after", .int result.retryAfter), ("limit", .int result.limit)]) :
          Except Failure (Option (Int × Int))) =
        some result.retryAfter := rfl
    simp [hretry, RateLimitResult.Prompt, hallowed, RateLimitRule.spec]

end

/-! ### Runs -/

/-- A check of the gateway for the key, or a call of `set_rate_limit` with what its schema accepts. -/
inductive RateLimitEvent
  | check (envs : Nat → Env PlatformInput)
  | setRateLimit (organizationId apiId : Uuid) (config : RateLimitConfig)
    (envs : Nat → Env PlatformInput)

/-- The state after some events, and the answers to the checks with the rules in force at them. -/
structure RateLimitState where
  db : PlatformDb
  world : World PlatformOutside
  log : List (Option RateLimitRule × Except Failure (Option (Int × Int)))

namespace RateLimitState

def next (apiId apiKeyId : Uuid) (s : RateLimitState) : RateLimitEvent → RateLimitState
  | .check envs =>
    let out := scope (enforceRateLimit apiId apiKeyId) envs ⟨s.db, s.world⟩
    ⟨out.2.db, out.2.world, s.log ++ [(ruleFor s.db apiId, out.1)]⟩
  | .setRateLimit organizationId apiId' config envs =>
    let out := scope
      (Management.ApiCatalogService.setRateLimit organizationId apiId' config.algorithm config.spec)
        envs
      ⟨s.db, s.world⟩
    ⟨out.2.db, out.2.world, s.log⟩

/-- Every blocked check told the client to wait for no longer than the window in force. -/
def InTime (s : RateLimitState) : Prop := ∀ x ∈ s.log, ∀ rule seconds, x.1 = some rule →
    retryAfter x.2 = some seconds →
  seconds ≤ rule.windowSeconds

end RateLimitState

/-- What a check finds under the rule in force is cleared within its window. -/
def Clears (apiId apiKeyId : Uuid) (s : RateLimitState) : RateLimitEvent → Prop
  | .check envs => ∀ rule, ruleFor s.db apiId = some rule →
    ClearsInWindow rule.algorithm [.uuid apiId, .uuid apiKeyId] rule.spec ⟨s.db, [], s.world, envs⟩
  | .setRateLimit .. => True

section
variable {apiId apiKeyId : Uuid} {s : RateLimitState}

/-- Every rule is one that the schema and the columns accept, and the limiters' keys are in order. -/
structure Configured (apiId apiKeyId : Uuid) (s : RateLimitState) : Prop where
  rules : ∀ r ∈ s.db.rateLimitRules.rows, r.spec.Stored
  tame : Tame [.uuid apiId, .uuid apiKeyId] s.world.clock s.world.outside.limits

theorem next_check (apiId apiKeyId : Uuid) (s : RateLimitState) (envs : Nat → Env PlatformInput) :
    let out := (enforceRateLimit apiId apiKeyId).eval ⟨s.db, [], s.world, envs⟩
    s.next apiId apiKeyId (.check envs) =
        ⟨s.db, out.2.world, s.log ++ [(ruleFor s.db apiId, out.1)]⟩ := by
  have hscope := (reads_enforceRateLimit apiId apiKeyId).scope envs ⟨s.db, s.world⟩
  show RateLimitState.mk (scope (enforceRateLimit apiId apiKeyId) envs ⟨s.db, s.world⟩).2.db _ _ = _
  rw [hscope]

theorem mem_setRateLimitRule {db : PlatformDb} {id : Uuid} {algorithm : RateLimitAlgorithm}
    {spec : RateLimitSpec} {r : RateLimitRule}
    (h : r ∈ (db.setRateLimitRule id algorithm spec).rateLimitRules.rows) :
    r ∈ db.rateLimitRules.rows ∨ r.spec = spec := by
  simp only [PlatformDb.setRateLimitRule, Table.mem_update] at h
  obtain ⟨r', hr', rfl⟩ := h
  split
  · exact .inr rfl
  · exact .inl hr'

theorem RateLimitSpec.Valid.stored_iff {spec : RateLimitSpec} (h : spec.Valid) : spec.Stored ↔
    spec.fits = true := by
  unfold RateLimitSpec.fits
  rw [Bool.and_eq_true, Bool.and_eq_true, fitsSigned_of_pos h.requests_pos,
    fitsSigned_of_pos h.window_pos]
  have hburst : spec.burst.all fitsSigned = true ↔ ∀ b, spec.burst = some b → b < 2 ^ 31 := by
    cases hb : spec.burst with
    | none => simp
    | some b => simp [fitsSigned_of_pos (h.burst_pos b hb)]
  rw [hburst]
  exact ⟨fun h => ⟨⟨h.requests_lt, h.window_lt⟩, h.burst_lt⟩, fun hs => ⟨h, hs.1.1, hs.1.2, hs.2⟩⟩

theorem rules_setRateLimit (h : ∀ r ∈ s.db.rateLimitRules.rows, r.spec.Stored)
    (organizationId apiId' : Uuid) (config : RateLimitConfig) (envs : Nat → Env PlatformInput) :
    ∀ r ∈ (s.next apiId apiKeyId
        (.setRateLimit organizationId apiId' config envs)).db.rateLimitRules.rows,
            r.spec.Stored := by
  have hcolumns : Management.ApiCatalogService.Columns ⟨s.db, [], s.world, envs⟩ organizationId
      apiId' False config.spec.fits _ _ :=
    Management.ApiCatalogService.setRateLimit_columns config.algorithm config.spec rfl fun r hr =>
      (h r hr).toValid.stored_iff.1 (h r hr)
  have hends :=
    (Management.ApiCatalogService.setRateLimit_ends organizationId apiId'
      config.algorithm config.spec
    (s := ⟨s.db, [], s.world, envs⟩) rfl).and hcolumns
  show ∀ r ∈ (scope
    (Management.ApiCatalogService.setRateLimit organizationId apiId' config.algorithm config.spec)
      envs
    ⟨s.db, s.world⟩).2.db.rateLimitRules.rows, r.spec.Stored
  rcases Prog.Ends.scope (s := (⟨s.db, s.world⟩ : State managementTables.backend)) hends with
    ⟨rule, s', db, ⟨⟨-, hcase⟩, -, hfits, -⟩, hflush, hout⟩ | ⟨e, s', -, hout⟩ <;>
      rw [hout] <;> dsimp only
  · have hstored := config.valid.stored_iff.2 hfits
    rcases hcase with ⟨id, hr⟩ | ⟨rule, -, -, hr⟩ | hr <;> rw [hr.dirty] at hflush <;>
      obtain rfl := Except.ok.inj hflush <;> rw [hr.db] <;> intro r hmem
    · rcases Table.mem_or_eq_of_mem_insert hmem with hmem | rfl
      · exact h r hmem
      · exact hstored
    · rcases mem_setRateLimitRule hmem with hmem | hspec
      · exact h r hmem
      · exact hspec ▸ hstored
    · exact h r hmem
  · exact h

/-- What an event keeps. -/
theorem Configured.next (h : Configured apiId apiKeyId s) (e : RateLimitEvent) :
    Configured apiId apiKeyId (s.next apiId apiKeyId e) := by
  cases e with
  | check envs =>
    rw [next_check]
    refine ⟨h.rules, ?_⟩
    cases hrule : ruleFor s.db apiId with
    | none =>
      rw [enforceRateLimit_none (s := ⟨s.db, [], s.world, envs⟩) hrule]
      exact h.tame
    | some rule =>
      exact (enforceRateLimit_some (s := ⟨s.db, [], s.world, envs⟩) hrule
        (h.rules rule (Table.mem_of_one hrule)) h.tame).1
  | setRateLimit organizationId apiId' config envs =>
    refine ⟨rules_setRateLimit h.rules organizationId apiId' config envs, ?_⟩
    have hgrown := scope_world World.Grown.refl World.Grown.trans
      (grown_setRateLimit organizationId apiId' config.algorithm config.spec) envs ⟨s.db, s.world⟩
    unfold RateLimitState.next
    dsimp only
    rw [hgrown.outside]
    exact h.tame.mono hgrown.clock

/-- A check is answered in time exactly when what it finds is cleared within the window. -/
theorem inTime_next (h : Configured apiId apiKeyId s) (hlog : s.InTime) (e : RateLimitEvent) :
    (s.next apiId apiKeyId e).InTime ↔ Clears apiId apiKeyId s e := by
  cases e with
  | setRateLimit organizationId apiId' config envs => exact iff_of_true hlog trivial
  | check envs =>
    have hlast : (s.next apiId apiKeyId (.check envs)).InTime ↔ ∀ rule seconds,
        ruleFor s.db apiId = some rule →
        retryAfter ((enforceRateLimit apiId apiKeyId).eval ⟨s.db, [], s.world, envs⟩).1 = some seconds →
        seconds ≤ rule.windowSeconds := by
      rw [next_check, RateLimitState.InTime]
      constructor
      · exact fun hall => hall _ (List.mem_append_right _ (List.mem_singleton_self _))
      · intro hnew x hx
        rcases List.mem_append.1 hx with hx | hx
        · exact hlog x hx
        · rw [List.mem_singleton.1 hx]
          exact hnew
    rw [hlast]
    unfold Clears
    cases hrule : ruleFor s.db apiId with
    | none => simp
    | some rule =>
      have hiff := (enforceRateLimit_some (s := ⟨s.db, [], s.world, envs⟩) hrule
        (h.rules rule (Table.mem_of_one hrule)) h.tame).2
      constructor
      · rintro hall _ ⟨rfl⟩
        exact hiff.1 fun seconds => hall rule seconds rfl
      · rintro hall _ seconds ⟨rfl⟩
        exact hiff.2 (hall rule rfl) seconds

variable (apiId apiKeyId) (s) in
/-- In a run from empty limiters every blocked check tells the client to wait for no longer than the
window in force exactly when no check under a fixed window finds a counter that outlives it, and
none under a token bucket whose refill is overlong finds it empty. -/
theorem reconfiguration_prompt_iff (es : List RateLimitEvent)
    (hrules : ∀ r ∈ s.db.rateLimitRules.rows, r.spec.Stored)
    (hlimits : s.world.outside.limits = LimiterStore.empty) (hlog : s.log = []) :
    Always (RateLimitState.next apiId apiKeyId) RateLimitState.InTime s es ↔
      Meets (RateLimitState.next apiId apiKeyId) (Clears apiId apiKeyId) s es := by
  refine always_iff_meets (I := Configured apiId apiKeyId) (fun s e h => h.next e)
    (fun s e h hp => inTime_next h hp e)
    ⟨hrules, ?_⟩ ?_
  · rw [hlimits]
    exact ⟨fun e he => (by cases he), fun e he => (by cases he)⟩
  · intro x hx
    rw [hlog] at hx
    cases hx

end

/-- One request within a fixed window of so many seconds. -/
def fixedWindowConfig (windowSeconds : Int) (hpos : 0 < windowSeconds)
    (hle : windowSeconds ≤ 86400) : RateLimitConfig :=
  ⟨.fixedWindow, ⟨1, windowSeconds, none⟩, ⟨Int.one_pos, hpos, by simp⟩, hle, by simp⟩

/-- A second into the day, a window of an hour and a request; a second later, a window of a minute
and a request. -/
def shortenedWindow : List RateLimitEvent :=
  let envs := fun n (_ : Nat) => sampleGatewayEnv (n * second)
  [.setRateLimit 5 41 (fixedWindowConfig 3600 (by decide) (by decide)) (envs 1), .check (envs 1),
    .setRateLimit 5 41 (fixedWindowConfig 60 (by decide) (by decide)) (envs 2), .check (envs 2)]

def sampleLimits : RateLimitState := ⟨sampleDailyDb, sampleGatewayWorld, []⟩

theorem reconfiguration_prompt_iff_shortened :
    Always (RateLimitState.next 41 43) RateLimitState.InTime sampleLimits shortenedWindow ↔
      Meets (RateLimitState.next 41 43) (Clears 41 43) sampleLimits shortenedWindow :=
  reconfiguration_prompt_iff 41 43 sampleLimits shortenedWindow (fun r hr => by cases hr) rfl rfl

/-- The counter of the first request lives for the hour, and the second request is told to wait for
the rest of it. -/
theorem shortened_window_late : ¬ ∀ (apiId apiKeyId : Uuid) (s : RateLimitState)
    (es : List RateLimitEvent),
    (∀ r ∈ s.db.rateLimitRules.rows, r.spec.Stored) → s.world.outside.limits = LimiterStore.empty →
      s.log = [] →
    Always (RateLimitState.next apiId apiKeyId) RateLimitState.InTime s es := by
  intro h
  have hall := always_iff.1 (h 41 43 sampleLimits shortenedWindow (fun r hr => by cases hr) rfl rfl)
    shortenedWindow []
    (List.append_nil _).symm
  have hlog : (some 60, some 3599) ∈
      (run (RateLimitState.next 41 43) sampleLimits shortenedWindow).log.map
      fun x => (x.1.map (·.windowSeconds), retryAfter x.2) := by decide +kernel
  obtain ⟨⟨rule, answer⟩, hx, he⟩ := List.mem_map.1 hlog
  obtain ⟨hrule, hretry⟩ := Prod.mk.inj he
  obtain ⟨rule, rfl, hwindow⟩ := Option.map_eq_some_iff.1 hrule
  have hle := hall _ hx rule 3599 rfl hretry
  omega

end TrafficPlatform
