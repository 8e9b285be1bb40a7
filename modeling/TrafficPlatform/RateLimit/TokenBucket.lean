import TrafficPlatform.Kit.Run
import TrafficPlatform.Kit.TokenBucket
import TrafficPlatform.RateLimit

/-!
# The token bucket limiter

What a check does to the level it finds, in any arithmetic (`token_check`). Then, in exact
arithmetic, a run of checks on one key, in the order in which Redis executes them: while the times
do not go back and an eviction is not felt (`InOrder`), the script is the ideal bucket of
`Kit.TokenBucket`. With one clock for the application and Redis, the time to live makes evictions
unfelt (`token_bucket_refines`). A check with an earlier time than the one before it stores that
time, and the next one refills the bucket for a second time (`token_bucket_exceeded`).
-/

namespace TrafficPlatform
open Kit

namespace RateLimitSpec.Valid

variable {fl : ℚ → ℚ} {spec : RateLimitSpec} (h : spec.Valid)
include h

theorem capacity_eq : spec.capacity = spec.burst.getD spec.requests := by
  unfold capacity
  cases hb : spec.burst with
  | none => rfl
  | some b => exact if_neg (h.burst_pos b hb).ne'

theorem capacity_pos : 0 < spec.capacity := by
  rw [h.capacity_eq]
  cases hb : spec.burst with
  | none => exact h.requests_pos
  | some b => exact h.burst_pos b hb

theorem rate_pos : 0 < (spec.requests : ℚ) / spec.windowSeconds :=
  div_pos (by exact_mod_cast h.requests_pos) (by exact_mod_cast h.window_pos)

theorem refillRate_pos (hfl : Double.Rounding fl) : 0 < spec.refillRate fl := hfl.pos h.rate_pos

theorem one_le_capacity (hfl : Double.Rounding fl) : 1 ≤ fl spec.capacity :=
  hfl.one ▸ hfl.mono (by exact_mod_cast h.capacity_pos)

theorem ttlMs_eq (hfl : Double.Rounding fl) :
    spec.ttlMs fl = ⌊fl (fl (fl spec.capacity / spec.refillRate fl) * 1000)⌋ + 1000 := by
  have hdiv : 0 ≤ fl spec.capacity / spec.refillRate fl :=
    div_nonneg (zero_le_one.trans (h.one_le_capacity hfl)) (h.refillRate_pos hfl).le
  rw [ttlMs, pyInt, if_pos (hfl.nonneg (mul_nonneg (hfl.nonneg hdiv) (by norm_num)))]

theorem ttlMs_pos (hfl : Double.Rounding fl) : 0 < spec.ttlMs fl := by
  have hdiv : 0 ≤ fl spec.capacity / spec.refillRate fl :=
    div_nonneg (zero_le_one.trans (h.one_le_capacity hfl)) (h.refillRate_pos hfl).le
  have hfloor :=
    Int.floor_nonneg.2 (hfl.nonneg (mul_nonneg (hfl.nonneg hdiv) (by norm_num : (0 : ℚ) ≤ 1000)))
  rw [h.ttlMs_eq hfl]
  omega

omit h in
/-- The ideal bucket of the rule. -/
def bucket (h : spec.Valid) : BucketSpec ℚ :=
  ⟨(spec.burst.getD spec.requests : Int), spec.requests / spec.windowSeconds,
    by exact_mod_cast h.capacity_eq ▸ h.capacity_pos.le, h.rate_pos.le⟩

theorem bucket_capacity : h.bucket.capacity = spec.capacity := by
  rw [h.capacity_eq]
  rfl

end RateLimitSpec.Valid

theorem RateLimitSpec.Stored.capacity_lt {spec : RateLimitSpec} (h : spec.Stored) :
    spec.capacity < 2 ^ 31 := by
  rw [h.capacity_eq]
  cases hb : spec.burst with
  | none => exact h.requests_lt
  | some b => exact h.burst_lt b hb

/-! ### One check -/

def tokenKey (key : RedisKey) : RedisKey := .text "rl" :: .text "tb" :: key

/-- A check: when `time.time()` is called in the application, and Redis's clock when it runs. -/
structure TokenCheck where
  now : ℚ
  time : Millis
deriving DecidableEq

/-- The level that the script finds. -/
def levelFound (fl : ℚ → ℚ) (key : RedisKey) (spec : RateLimitSpec) (s : LimiterStore)
    (c : TokenCheck) : ℚ :=
  let data := (s.hashes.get c.time (tokenKey key)).getD ⟨fl spec.capacity, fl c.now⟩
  min (fl spec.capacity) (fl (data.tokens + fl (max 0 (fl (fl c.now - data.ts)) * spec.refillRate fl)))

/-- The milliseconds in which the bucket is refilled to one token. -/
def waitMs (fl : ℚ → ℚ) (spec : RateLimitSpec) (level : ℚ) : ℚ :=
  fl (fl (fl (1 - level) / spec.refillRate fl) * 1000)

/-- What the limiter reports when a check has found the level. -/
def tokenResult (fl : ℚ → ℚ) (spec : RateLimitSpec) (level : ℚ) : RateLimitResult :=
  if 1 ≤ level then ⟨true, spec.capacity, ⌊fl (level - 1)⌋, 0⟩
  else ⟨false, spec.capacity, ⌊level⌋, msToSecondsCeil ⌈waitMs fl spec level⌉⟩

section
variable {fl : ℚ → ℚ} (hfl : Double.Rounding fl) {key : RedisKey} {spec : RateLimitSpec}
    (h : spec.Valid)
  {s : LimiterStore} {c : TokenCheck}
include hfl h

/-- What a check does that finds the level. -/
theorem token_check {level : ℚ} (hlevel : levelFound fl key spec s c = level) :
    ∃ hashes : Store RedisKey TokenHash Millis, hashes (tokenKey key) =
        some ⟨⟨if 1 ≤ level then fl (level - 1) else level, fl c.now⟩, some (c.time + spec.ttlMs fl)⟩ ∧
      TokenBucketLimiter.check fl key spec c.now c.time s =
          .ok (tokenResult fl spec level, { s with hashes }) := by
  have hne : ¬ (spec.windowSeconds = 0 ∨ spec.refillRate fl = 0) := by
    rintro (hw | hr)
    · exact absurd hw h.window_pos.ne'
    · exact absurd hr (h.refillRate_pos hfl).ne'
  unfold levelFound tokenKey at hlevel
  unfold TokenBucketLimiter.check tokenBucketLua tokenResult waitMs tokenKey
  rw [if_neg hne]
  dsimp only at hlevel ⊢
  rw [hlevel]
  by_cases hle : 1 ≤ level
  · simp only [if_pos hle]
    exact ⟨_, pexpire_set _ (h.ttlMs_pos hfl), rfl⟩
  · simp only [if_neg hle]
    exact ⟨_, pexpire_set _ (h.ttlMs_pos hfl), rfl⟩

omit h in
theorem levelFound_of_dead (hdead : s.hashes.live c.time (tokenKey key) = none) :
    levelFound fl key spec s c = fl spec.capacity := by
  simp [levelFound, Store.get, hdead, hfl.zero, hfl.idem]

theorem levelFound_nonneg (hs : ∀ e, s.hashes (tokenKey key) = some e → 0 ≤ e.value.tokens)
    (c : TokenCheck) :
    0 ≤ levelFound fl key spec s c := by
  have hcap : 0 ≤ fl spec.capacity := zero_le_one.trans (h.one_le_capacity hfl)
  refine le_min hcap
    (hfl.nonneg (add_nonneg ?_
      (hfl.nonneg (mul_nonneg (le_max_left _ _) (h.refillRate_pos hfl).le))))
  cases hlive : s.hashes.live c.time (tokenKey key) with
  | none => simpa [Store.get, hlive] using hcap
  | some e => simpa [Store.get, hlive] using hs e (Store.eq_of_live hlive)

end

/-! ### Runs in exact arithmetic -/

/-- Redis after some checks, and their results. -/
structure TokenState where
  redis : LimiterStore
  log : List (TokenCheck × RateLimitResult)

def TokenState.check (key : RedisKey) (spec : RateLimitSpec) (s : TokenState) (c : TokenCheck) :
    TokenState :=
  match TokenBucketLimiter.check id key spec c.now c.time s.redis with
  | .ok (result, redis) => ⟨redis, s.log ++ [(c, result)]⟩
  | .error _ => s

/-- How many checks of the log were allowed. -/
def TokenState.allowed (s : TokenState) : Nat := s.log.countP (·.2.allowed)

/-- The check does not come with an earlier time than the one before it in the run; and if Redis has
dropped the hash in between, the bucket would be full by now anyway. -/
def InOrder (key : RedisKey) (spec : RateLimitSpec) (s : TokenState) (c : TokenCheck) : Prop :=
  s.log ≠ [] → ∀ e ∈ s.redis.hashes (tokenKey key), e.value.ts ≤ c.now ∧
    (s.redis.hashes.live c.time (tokenKey key) = none → ((spec.burst.getD spec.requests : Int) : ℚ) ≤
      e.value.tokens + (c.now - e.value.ts) * (spec.requests / spec.windowSeconds))

instance (key : RedisKey) (spec : RateLimitSpec) (s : TokenState) (c : TokenCheck) :
    Decidable (InOrder key spec s c) :=
  inferInstanceAs (Decidable (_ → _))

section
variable {key : RedisKey} {spec : RateLimitSpec} (h : spec.Valid) {s : TokenState} {c : TokenCheck}
  {b : TokenBucket h.bucket} {cs : List TokenCheck}

/-- The hash holds the bucket. -/
def Holds (key : RedisKey) (b : TokenBucket h.bucket) (s : TokenState) : Prop :=
  ∃ expiry, s.redis.hashes (tokenKey key) = some ⟨⟨b.level, b.time⟩, expiry⟩

theorem check_spec (hlevel : levelFound id key spec s.redis c = b.levelAt c.now) :
    ∃ result, (s.check key spec c).log = s.log ++ [(c, result)] ∧ result.allowed = (b.check c.now).1 ∧
      result.remaining = ⌊(b.check c.now).2.level⌋ ∧
      (s.check key spec c).redis.hashes (tokenKey key) =
        some ⟨⟨(b.check c.now).2.level, c.now⟩, some (c.time + spec.ttlMs id)⟩ := by
  obtain ⟨hashes, hhash, hcheck⟩ := token_check Double.rounding_id h hlevel
  rw [TokenState.check, hcheck, b.check_fst, b.check_level]
  refine ⟨_, rfl, ?_, ?_, hhash⟩ <;> unfold tokenResult <;> split <;> simp [*]

theorem levelFound_full (hdead : s.redis.hashes.live c.time (tokenKey key) = none) :
    levelFound id key spec s.redis c = h.bucket.capacity := by
  rw [levelFound_of_dead Double.rounding_id hdead, h.bucket_capacity]
  rfl

theorem levelFound_live {e : Entry TokenHash Millis}
    (hlive : s.redis.hashes.live c.time (tokenKey key) = some e)
    (he : e.value = ⟨b.level, b.time⟩) : levelFound id key spec s.redis c = b.levelAt c.now := by
  simp only [levelFound, Store.get, hlive, he, Option.map_some, Option.getD_some, id, h.capacity_eq]
  rfl

theorem InOrder.levelFound (hc : InOrder key spec s c) (hlog : s.log ≠ []) (hb : Holds h key b s) :
    levelFound id key spec s.redis c = b.levelAt c.now ∧ b.time ≤ c.now := by
  obtain ⟨expiry, he⟩ := hb
  obtain ⟨hle, hevict⟩ := hc hlog _ he
  refine ⟨?_, hle⟩
  cases hlive : s.redis.hashes.live c.time (tokenKey key) with
  | none =>
    have hfull := hevict hlive
    rw [levelFound_full h hlive, TokenBucket.levelAt, max_eq_right (sub_nonneg.2 hle)]
    exact (min_eq_left hfull).symm
  | some e =>
    obtain rfl := Option.some.inj (he.symm.trans (Store.eq_of_live hlive))
    exact levelFound_live h hlive rfl

/-- What the application sees of an answer. -/
def shown (a : ℚ × Bool × ℚ) : ℚ × Bool × Int := (a.1, a.2.1, ⌊a.2.2⌋)

/-- A run whose checks are all in order gives the answers of the bucket. -/
theorem run_answers (hlog : s.log ≠ []) (hb : Holds h key b s)
    (hm : Meets (TokenState.check key spec) (InOrder key spec) s cs) :
    (∀ c ∈ cs, b.time ≤ c.now) ∧ (cs.map (·.now)).Pairwise (· ≤ ·) ∧
      ∃ results, (run (TokenState.check key spec) s cs).log = s.log ++ results ∧
        results.map (fun x => (x.1.now, x.2.allowed, x.2.remaining)) =
            (b.answers (cs.map (·.now))).map shown := by
  induction cs generalizing s b with
  | nil => exact ⟨by simp, List.Pairwise.nil, [], by simp [run], rfl⟩
  | cons c cs ih =>
    obtain ⟨hc, hm⟩ := hm
    obtain ⟨hlevel, hle⟩ := hc.levelFound h hlog hb
    obtain ⟨result, hlog', hallowed, hremaining, hhash⟩ := check_spec h hlevel
    have htime := b.check_time c.now
    have hb' : Holds h key (b.check c.now).2 (s.check key spec c) := ⟨_, by rw [hhash, htime]⟩
    obtain ⟨hall, hsorted, results, hrun, hanswers⟩ := ih (by rw [hlog']; simp) hb' hm
    rw [htime] at hall
    refine ⟨fun c' hc' => ?_, List.pairwise_cons.2 ⟨fun t ht => ?_, hsorted⟩, (c, result) ::
      results, ?_, ?_⟩
    · rcases List.mem_cons.1 hc' with rfl | hc'
      · exact hle
      · exact hle.trans (hall c' hc')
    · obtain ⟨c', hc', rfl⟩ := List.mem_map.1 ht
      exact hall c' hc'
    · rw [run, hrun, hlog']; simp
    · simp only [List.map_cons, TokenBucket.answers, hanswers, hallowed, hremaining]
      rfl

theorem countP_answers {results : List (TokenCheck × RateLimitResult)} {answers : List (ℚ × Bool × ℚ)}
    (hr : results.map (fun x => (x.1.now, x.2.allowed, x.2.remaining)) = answers.map shown)
    (lo hi : ℚ) :
    results.countP (fun x => x.2.allowed && decide (lo ≤ x.1.now ∧ x.1.now ≤ hi)) =
      TokenBucket.granted lo hi answers := by
  have := congrArg (List.countP fun x : ℚ × Bool × Int => x.2.1 && decide (lo ≤ x.1 ∧ x.1 ≤ hi)) hr
  rwa [List.countP_map, List.countP_map] at this

/-! ### Any order of arrival -/

/-- The bucket that the hash holds after the first check of a run. -/
theorem first_check (hlog : s.log = [])
    (hs : ∀ e ∈ s.redis.hashes (tokenKey key), 0 ≤ e.value.tokens) (c : TokenCheck) :
    ∃ (b : TokenBucket h.bucket) (result : RateLimitResult), (s.check key spec c).log = [(c, result)] ∧
      Holds h key b (s.check key spec c) ∧ b.time = c.now ∧
      (if result.allowed then 1 else 0) + b.level ≤ h.bucket.capacity := by
  have hnonneg : 0 ≤ levelFound id key spec s.redis c := levelFound_nonneg Double.rounding_id h hs c
  have hle : levelFound id key spec s.redis c ≤ h.bucket.capacity := by
    rw [h.bucket_capacity]
    exact min_le_left _ _
  -- the level that the check finds, as a bucket at the time of the check
  let found : TokenBucket h.bucket := ⟨levelFound id key spec s.redis c, c.now, hnonneg, hle⟩
  have hlevel : levelFound id key spec s.redis c = found.levelAt c.now := by
    rw [TokenBucket.levelAt, sub_self, max_self, zero_mul, add_zero]
    exact (min_eq_right hle).symm
  obtain ⟨result, hlog', hallowed, -, hhash⟩ := check_spec h hlevel
  refine ⟨(found.check c.now).2, result, by rw [hlog', hlog]; rfl, ⟨_, by rw [hhash, found.check_time]⟩,
    found.check_time _, ?_⟩
  rw [hallowed, found.check_spent, ← hlevel]
  exact hle

variable (key s cs) in
include h in
/-- A run whose checks are all in order allows at most `capacity + rate * (hi - lo)` of them, for the
smallest and the largest of their times. -/
theorem token_bucket_bound (hs : ∀ e ∈ s.redis.hashes (tokenKey key), 0 ≤ e.value.tokens)
    (hlog : s.log = []) (hm : Meets (TokenState.check key spec) (InOrder key spec) s cs)
    (lo hi : TokenCheck) (hlo : lo ∈ cs) (hhi : hi ∈ cs)
    (hall : ∀ c ∈ cs, lo.now ≤ c.now ∧ c.now ≤ hi.now) :
    ((run (TokenState.check key spec) s cs).allowed : ℚ) ≤
      (spec.burst.getD spec.requests : Int) +
        (spec.requests : ℚ) / spec.windowSeconds * (hi.now - lo.now) := by
  cases cs with
  | nil => cases hlo
  | cons c cs =>
    obtain ⟨b, result, hlog', hb, htime, hspent⟩ := first_check h hlog hs c
    obtain ⟨hle, hsorted, results, hrun, hanswers⟩ := run_answers h (by rw [hlog']; simp) hb hm.2
    have hc := hall c List.mem_cons_self
    have hgranted : (TokenBucket.granted lo.now hi.now (b.answers (cs.map (·.now))) : ℚ) ≤
        b.level + (spec.requests : ℚ) / spec.windowSeconds * (hi.now - b.time) :=
      TokenBucket.granted_le_level hsorted (by simpa using hle) (by rw [htime]; exact hc.2)
    have hcount : results.countP (·.2.allowed) = TokenBucket.granted lo.now hi.now
        (b.answers (cs.map (·.now))) := by
      rw [← countP_answers hanswers]
      refine List.countP_congr fun x hx => ?_
      have hx' : x.1.now ∈ cs.map (·.now) := by
        have := congrArg (List.map Prod.fst) hanswers
        simp only [List.map_map, Function.comp_def, shown, TokenBucket.answers_times] at this
        rw [← this]
        exact List.mem_map_of_mem hx
      obtain ⟨c', hc', he⟩ := List.mem_map.1 hx'
      have hin := hall c' (List.mem_cons_of_mem _ hc')
      rw [he] at hin
      simp [hin.1, hin.2]
    have hallowed : (run (TokenState.check key spec) s (c :: cs)).allowed =
        (if result.allowed then 1 else 0) + results.countP (·.2.allowed) := by
      rw [run, TokenState.allowed, hrun, hlog', List.countP_append, List.countP_singleton]
    have hmono : (spec.requests : ℚ) / spec.windowSeconds * (hi.now - b.time) ≤
        (spec.requests : ℚ) / spec.windowSeconds * (hi.now - lo.now) :=
      mul_le_mul_of_nonneg_left (by rw [htime]; linarith) h.rate_pos.le
    rw [hallowed, hcount]
    push_cast
    change _ ≤ h.bucket.capacity + _
    linarith

end

/-- One token a second, and a bucket for one. -/
def sampleSpec : RateLimitSpec := ⟨1, 1, none⟩

theorem sampleSpec_valid : sampleSpec.Valid := ⟨by decide, by decide, by simp [sampleSpec]⟩

def sampleToken : TokenState := ⟨LimiterStore.empty, []⟩

/-- The bound at work: two checks in order, one second apart. -/
theorem token_bucket_bound_two :
    ((run (TokenState.check [] sampleSpec) sampleToken [⟨0, 0⟩, ⟨1, 1000⟩]).allowed : ℚ) ≤
    (sampleSpec.burst.getD sampleSpec.requests : Int) +
        (sampleSpec.requests : ℚ) / sampleSpec.windowSeconds * (1 - 0) :=
  token_bucket_bound [] sampleSpec_valid sampleToken _ (fun e he => by cases he) rfl
    (by decide +kernel) ⟨0, 0⟩ ⟨1, 1000⟩ (by decide) (by decide) (by decide +kernel)

/-- Two clocks that are a second apart: each return to the earlier one is a second of refill for the
later one. Three checks are allowed where two are due. -/
theorem token_bucket_exceeded : ¬ ∀ (key : RedisKey) (spec : RateLimitSpec) (s : TokenState)
    (cs : List TokenCheck),
    spec.Valid → s.redis.hashes (tokenKey key) = none → s.log = [] → ∀ lo ∈ cs, ∀ hi ∈ cs,
    (∀ c ∈ cs, lo.now ≤ c.now ∧ c.now ≤ hi.now) → ((run (TokenState.check key spec) s cs).allowed : ℚ) ≤
      (spec.burst.getD spec.requests : Int) +
        (spec.requests : ℚ) / spec.windowSeconds * (hi.now - lo.now) := by
  intro hbound
  have h := hbound [] sampleSpec sampleToken [⟨1, 0⟩, ⟨0, 0⟩, ⟨1, 0⟩, ⟨0, 0⟩, ⟨1, 0⟩]
    sampleSpec_valid rfl rfl ⟨0, 0⟩ (by decide) ⟨1, 0⟩ (by decide) (by decide +kernel)
  have hthree :
      (run (TokenState.check [] sampleSpec) sampleToken
          [⟨1, 0⟩, ⟨0, 0⟩, ⟨1, 0⟩, ⟨0, 0⟩, ⟨1, 0⟩]).allowed = 3 := by
    decide +kernel
  have hdue : ((sampleSpec.burst.getD sampleSpec.requests : Int) : ℚ) +
      (sampleSpec.requests : ℚ) / sampleSpec.windowSeconds * (1 - 0) = 2 := by
    decide +kernel
  rw [hthree, hdue] at h
  exact absurd h (by decide +kernel)

/-! ### One clock -/

/-- A check at a time that is Redis's clock as well. -/
def atOneClock (now : ℚ) : TokenCheck := ⟨now, ⌊now * 1000⌋⟩

/-- The hash holds the bucket, and its time to live counts from the last check. -/
def Refreshed {spec : RateLimitSpec} (h : spec.Valid) (key : RedisKey) (b : TokenBucket h.bucket)
    (s : TokenState) : Prop :=
  s.redis.hashes (tokenKey key) = some ⟨⟨b.level, b.time⟩, some (⌊b.time * 1000⌋ + spec.ttlMs id)⟩

section
variable {key : RedisKey} {spec : RateLimitSpec} (h : spec.Valid) {s : TokenState}
    {b : TokenBucket h.bucket} {now : ℚ}
  {nows : List ℚ}

/-- A hash that Redis has dropped held a bucket that would be full by now. -/
theorem Refreshed.levelFound (hb : Refreshed h key b s) (hle : b.time ≤ now) :
    TrafficPlatform.levelFound id key spec s.redis (atOneClock now) = b.levelAt now := by
  by_cases hlive : ⌊now * 1000⌋ ≤ ⌊b.time * 1000⌋ + spec.ttlMs id
  · refine levelFound_live h (c := atOneClock now) (Store.live_some hb fun t ht => ?_) rfl
    obtain rfl := Option.some.inj ht
    exact hlive
  · have hdead : s.redis.hashes.live (atOneClock now).time (tokenKey key) = none :=
      Store.live_expired hb rfl (lt_of_not_ge hlive)
    have hlt : ((⌊b.time * 1000⌋ + spec.ttlMs id : Int) : ℚ) + 1 ≤ ⌊now * 1000⌋ := by
      exact_mod_cast lt_of_not_ge hlive
    have hnow := Int.floor_le (now * 1000)
    have hthen := Int.lt_floor_add_one (b.time * 1000)
    have httl := Int.lt_floor_add_one
      ((spec.capacity : ℚ) / (spec.requests / spec.windowSeconds) * 1000)
    rw [h.ttlMs_eq Double.rounding_id] at hlt
    simp only [RateLimitSpec.refillRate, id] at hlt
    push_cast at hlt
    have helapsed : (spec.capacity : ℚ) / (spec.requests / spec.windowSeconds) ≤ now -
      b.time := by linarith
    have hfull : (spec.capacity : ℚ) ≤ (now - b.time) * (spec.requests / spec.windowSeconds) :=
      (div_le_iff₀ h.rate_pos).1 helapsed
    rw [h.capacity_eq] at hfull
    rw [levelFound_full h hdead, TokenBucket.levelAt, max_eq_right (sub_nonneg.2 hle)]
    exact (min_eq_left (le_trans hfull (le_add_of_nonneg_left b.nonneg))).symm

theorem Refreshed.check
    (hlevel : TrafficPlatform.levelFound id key spec s.redis (atOneClock now) = b.levelAt now) :
    Refreshed h key (b.check now).2 (s.check key spec (atOneClock now)) ∧
    ∃ result, (s.check key spec (atOneClock now)).log = s.log ++ [(atOneClock now, result)] ∧
      result.allowed = (b.check now).1 ∧ result.remaining = ⌊(b.check now).2.level⌋ := by
  obtain ⟨result, hlog, hallowed, hremaining, hhash⟩ := check_spec h (c := atOneClock now) hlevel
  exact ⟨by rw [Refreshed, hhash, b.check_time]; rfl, result, hlog, hallowed, hremaining⟩

/-- The stored tokens are within the capacity. -/
def WithinCapacity (key : RedisKey) (spec : RateLimitSpec) (s : TokenState) : Prop :=
  ∀ e ∈ s.redis.hashes (tokenKey key),
    0 ≤ e.value.tokens ∧ e.value.tokens ≤ (spec.burst.getD spec.requests : Int)

theorem Refreshed.withinCapacity (hb : Refreshed h key b s) : WithinCapacity key spec s := by
  intro e he
  rw [hb] at he
  obtain rfl := Option.some.inj he
  exact ⟨b.nonneg, b.le_capacity⟩

theorem Refreshed.run (hb : Refreshed h key b s) (hle : ∀ t ∈ nows, b.time ≤ t)
    (hs : nows.Pairwise (· ≤ ·)) :
    Always (TokenState.check key spec) (WithinCapacity key spec) s (nows.map atOneClock) ∧
    ∃ results, (run (TokenState.check key spec) s (nows.map atOneClock)).log = s.log ++ results ∧
      results.map (fun x => (x.1.now, x.2.allowed, x.2.remaining)) = (b.answers nows).map shown := by
  induction nows generalizing s b with
  | nil => exact ⟨hb.withinCapacity, [], by simp [Kit.run], rfl⟩
  | cons t ts ih =>
    obtain ⟨ht, hs⟩ := List.pairwise_cons.1 hs
    obtain ⟨hb', result, hlog, hallowed, hremaining⟩ :=
      Refreshed.check h (hb.levelFound h (hle t List.mem_cons_self))
    obtain ⟨halways, results, hrun, hanswers⟩ := ih hb' (by simpa [b.check_time] using ht) hs
    refine ⟨⟨hb.withinCapacity, halways⟩, (atOneClock t, result) :: results, ?_, ?_⟩
    · rw [List.map_cons, Kit.run, hrun, hlog]; simp
    · simp only [List.map_cons, TokenBucket.answers, hanswers, hallowed, hremaining]
      rfl

variable (key s nows) in
/-- On one clock, with the evictions that Redis makes, the limiter gives the answers of an ideal bucket
that starts full and is never evicted; the stored tokens stay within the capacity, and over any interval
the allowed checks stay within the capacity and what is refilled. -/
theorem token_bucket_refines (hfresh : s.redis.hashes (tokenKey key) = none) (hlog : s.log = [])
    (hs : nows.Pairwise (· ≤ ·)) :
    (run (TokenState.check key spec) s (nows.map atOneClock)).log.map
        (fun x => (x.1.now, x.2.allowed, x.2.remaining)) =
          ((TokenBucket.full h.bucket 0).answers nows).map shown ∧
      Always (TokenState.check key spec) (WithinCapacity key spec) s (nows.map atOneClock) ∧
      ∀ lo hi : ℚ, lo ≤ hi →
        ((run (TokenState.check key spec) s (nows.map atOneClock)).log.countP
            (fun x => x.2.allowed && decide (lo ≤ x.1.now ∧ x.1.now ≤ hi)) : ℚ) ≤
          (spec.burst.getD spec.requests : Int) +
            (spec.requests : ℚ) / spec.windowSeconds * (hi - lo) := by
  have hrun : Always (TokenState.check key spec) (WithinCapacity key spec) s (nows.map atOneClock) ∧
      (run (TokenState.check key spec) s (nows.map atOneClock)).log.map
        (fun x => (x.1.now, x.2.allowed, x.2.remaining)) =
            ((TokenBucket.full h.bucket 0).answers nows).map shown := by
    have hnone : WithinCapacity key spec s := by
      intro e he; rw [hfresh] at he; cases he
    cases nows with
    | nil => exact ⟨hnone, by rw [List.map_nil, Kit.run, hlog]; rfl⟩
    | cons t ts =>
      -- the first check finds no hash, and the ideal bucket is full
      obtain ⟨ht, hs⟩ := List.pairwise_cons.1 hs
      have hlevel : levelFound id key spec s.redis (atOneClock t) =
          (TokenBucket.full h.bucket 0).levelAt t := by
        rw [levelFound_full h (Store.live_of_none hfresh), TokenBucket.levelAt_full]
      obtain ⟨hb, result, hlog', hallowed, hremaining⟩ := Refreshed.check h hlevel
      obtain ⟨halways, results, hrun, hanswers⟩ :=
        hb.run h (by simpa [TokenBucket.check_time] using ht) hs
      refine ⟨⟨hnone, halways⟩, ?_⟩
      rw [List.map_cons, Kit.run, hrun, hlog', hlog]
      simp only [List.nil_append, List.singleton_append, List.map_cons, TokenBucket.answers,
        hanswers, hallowed,
        hremaining]
      rfl
  refine ⟨hrun.2, hrun.1, fun lo hi hle => ?_⟩
  rw [countP_answers hrun.2]
  exact TokenBucket.granted_le _ hle hs

end

/-- Three checks of a bucket for one; the hash is dropped before the last one. -/
theorem token_bucket_refines_three :
    (run (TokenState.check [] sampleSpec) sampleToken ([0, 1 / 2, 5].map atOneClock)).log.map
        (fun x => (x.1.now, x.2.allowed, x.2.remaining)) =
      ((TokenBucket.full sampleSpec_valid.bucket 0).answers [0, 1 / 2, 5]).map shown :=
  (token_bucket_refines [] sampleSpec_valid sampleToken [0, 1 / 2, 5] rfl rfl (by decide +kernel)).1

end TrafficPlatform
