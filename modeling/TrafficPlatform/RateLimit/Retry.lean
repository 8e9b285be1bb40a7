import TrafficPlatform.RateLimit.Checks
import TrafficPlatform.RateLimit.ExactLog

/-!
# How long a blocked caller is told to wait

A blocked check reports a number of seconds, which goes into the error and from there into the
`Retry-After` header unless it is zero. The sliding window counts up to the moment its oldest entry
leaves, and rounds up. The fixed window reports the time to live of its key, and a key is still
there when no time is left: a caller that is blocked a whole number of seconds before the expiry is
told to come back at the last moment of the window, or at once. The token bucket divides what is
missing to a token by its rate; multiplied by the rate again, the time may give less.
-/

namespace TrafficPlatform
open Kit

/-- What the error handler puts into `Retry-After`. -/
def AppError.retryAfterHeader (e : AppError) : Option String :=
  match e.details.lookup "retry_after" with
  | some (.int n) => if n = 0 then none else some (toString n)
  | some (.text t) => if t = "" then none else some t
  | none => none

/-- What `_enforce_rate_limit` raises. -/
def RateLimitResult.error (r : RateLimitResult) : AppError :=
  ⟨.rateLimitedError, ErrorClass.rateLimitedError.code, "Rate limit exceeded for this API key.",
    [("retry_after", .int r.retryAfter), ("limit", .int r.limit)]⟩

/-- The report of the blocked check `c`: at least one second, also in the header, and after that
many seconds without another check, a check is allowed. -/
structure Honest (a : RateLimitAlgorithm) (key : RedisKey) (spec : RateLimitSpec) (c : LimiterCheck)
    (r : RateLimitResult) (s : LimiterStore) : Prop where
  positive : 1 ≤ r.retryAfter
  header : r.error.retryAfterHeader = some (toString r.retryAfter)
  allowed : ∀ c', OneClock c' → c.now + r.retryAfter ≤ c'.now →
    ∃ r', (a.inDoubles key spec s c').1 = .ok r' ∧ r'.allowed = true

theorem RateLimitResult.header_of_pos {r : RateLimitResult} (h : 1 ≤ r.retryAfter) :
    r.error.retryAfterHeader = some (toString r.retryAfter) := by
  have hne : r.retryAfter ≠ 0 := by omega
  simp [error, AppError.retryAfterHeader, hne]

theorem Honest.of_wait {a : RateLimitAlgorithm} {key : RedisKey} {spec : RateLimitSpec}
    {c : LimiterCheck} {r : RateLimitResult} {s : LimiterStore} {n : Int} (hretry : r.retryAfter = n)
    (hn : 1 ≤ n) (hallowed : ∀ c', OneClock c' → c.now + n ≤ c'.now →
      ∃ r', (a.inDoubles key spec s c').1 = .ok r' ∧ r'.allowed = true) :
    Honest a key spec c r s := by
  subst hretry
  exact ⟨hn, RateLimitResult.header_of_pos hn, hallowed⟩

theorem one_le_msToSecondsCeil {ms : Int} : 1 ≤ msToSecondsCeil ms ↔ 0 < ms := by
  unfold msToSecondsCeil
  omega

theorem le_msToSecondsCeil (ms : Int) : ms ≤ msToSecondsCeil ms * 1000 := by
  unfold msToSecondsCeil
  omega

theorem msToSecondsCeil_of_dvd {ms : Int} (h : 0 ≤ ms) (hd : (1000 : Int) ∣ ms) :
    msToSecondsCeil ms * 1000 = ms := by
  unfold msToSecondsCeil
  omega

theorem pos_of_not_dvd {ms : Int} (h : 0 ≤ ms) (hd : ¬ (1000 : Int) ∣ ms) : 0 < ms := by omega

theorem lt_msToSecondsCeil {ms : Int} (hd : ¬ (1000 : Int) ∣ ms) : ms < msToSecondsCeil ms * 1000 := by
  unfold msToSecondsCeil
  omega

theorem OneClock.after {c : LimiterCheck} {n : Int} (h : OneClock c) (hn : 0 ≤ n) :
    OneClock ⟨c.now + n, 0, c.time + n * 1000⟩ := by
  refine ⟨add_nonneg h.now_nonneg (by exact_mod_cast hn), ?_⟩
  show c.time + n * 1000 = ⌊(c.now + n) * 1000⌋
  rw [h.time, ← Int.floor_add_intCast]
  congr 1
  push_cast
  ring

section
variable {key : RedisKey} {spec : RateLimitSpec} {s : LimiterStore} {c c' : LimiterCheck}
    {r : RateLimitResult}

/-! ### The fixed window -/

theorem fixed_allowed_iff {counter : Counter Millis} (h : spec.Valid)
    (hused : spec.requests ≤ counter.used) :
    (fixedResult spec c.time (Counter.hit spec.life c.time (some counter))).allowed = true ↔
        counter.expiry < c.time := by
  have hreq := h.requests_pos
  rw [fixedResult_allowed, decide_eq_true_eq]
  by_cases hle : c.time ≤ counter.expiry
  · rw [Counter.hit, if_pos hle]
    refine iff_of_false ?_ (not_lt_of_ge hle)
    push_cast
    omega
  · rw [Counter.hit, if_neg hle]
    exact iff_of_true (by exact_mod_cast hreq) (lt_of_not_ge hle)

theorem fixed_retry_iff {counter : Option (Counter Millis)} (h : spec.Valid)
    (hc : Counts key counter s) (hclock : OneClock c)
    (hr : (RateLimitAlgorithm.fixedWindow.inDoubles key spec s c).1 = .ok r)
    (hblocked : r.allowed = false) :
    Honest .fixedWindow key spec c r (RateLimitAlgorithm.fixedWindow.inDoubles key spec s c).2 ↔
      ¬ (1000 : Int) ∣ pttl c.time (fixedKey key) s.counters := by
  obtain ⟨hresult, hcounts⟩ := fixed_step (c := c) h hc
  obtain rfl := Except.ok.inj (hr.symm.trans hresult)
  obtain ⟨found, rfl, hle, hhit, hused⟩ := fixed_blocked h hblocked
  rw [hhit] at hblocked hcounts ⊢
  have httl : pttl c.time (fixedKey key) s.counters = found.expiry - c.time := by rw [pttl, hc.live hle]
  have hretry : (fixedResult spec c.time ⟨found.used + 1, found.expiry⟩).retryAfter =
      msToSecondsCeil (found.expiry - c.time) := by
    rw [fixedResult, if_neg (by push_cast; omega)]
  -- what a later check does
  have hlater : ∀ c', (∃ r', (RateLimitAlgorithm.fixedWindow.inDoubles key spec
      (RateLimitAlgorithm.fixedWindow.inDoubles key spec s c).2 c').1 = .ok r' ∧
          r'.allowed = true) ↔ found.expiry < c'.time := by
    intro c'
    obtain ⟨hresult', -⟩ := fixed_step (c := c') h hcounts
    rw [← @fixed_allowed_iff _ _ ⟨found.used + 1, found.expiry⟩ h (by push_cast; omega), hresult']
    simp
  have httl_nonneg : 0 ≤ found.expiry - c.time := Int.sub_nonneg_of_le hle
  rw [httl]
  constructor
  · -- the check at the reported time
    intro hhonest hdvd
    have hpos := hhonest.positive
    let c' : LimiterCheck := ⟨c.now + msToSecondsCeil (found.expiry - c.time), 0,
      c.time + msToSecondsCeil (found.expiry - c.time) * 1000⟩
    have hclock' : OneClock c' := hclock.after (by rw [hretry] at hpos; omega)
    have hlt := (hlater c').1 (hhonest.allowed c' hclock' (by rw [hretry]))
    have hle' : c'.time ≤ found.expiry := by
      show c.time + msToSecondsCeil (found.expiry - c.time) * 1000 ≤ found.expiry
      rw [msToSecondsCeil_of_dvd httl_nonneg hdvd, add_sub_cancel]
    exact absurd hlt (not_lt_of_ge hle')
  · intro hdvd
    have hpos : 1 ≤ msToSecondsCeil (found.expiry - c.time) :=
      one_le_msToSecondsCeil.2 (pos_of_not_dvd httl_nonneg hdvd)
    refine .of_wait hretry hpos fun c' hc' hwait => ?_
    have hwait := hclock.time_add hc' hwait
    refine (hlater c').2 (lt_of_lt_of_le ?_ hwait)
    exact sub_lt_iff_lt_add'.1 (lt_msToSecondsCeil hdvd)

/-! ### The sliding window -/

/-- The sorted set has no more than `requests` entries, none of a time before the epoch. -/
def Small (key : RedisKey) (spec : RateLimitSpec) (s : LimiterStore) : Prop :=
  ∀ e, s.zsets (windowKey key) = some e → (e.value.length : Int) ≤ spec.requests ∧
    ∀ x ∈ e.value, 0 ≤ x.1

theorem inSet_cases (key : RedisKey) (spec : RateLimitSpec) (s : LimiterStore) (c : LimiterCheck) :
    inSet key spec s c = [] ∨ ∃ e, s.zsets (windowKey key) = some e ∧
      inSet key spec s c = zremrangebyscore (c.nowMs - spec.windowSeconds * 1000) e.value := by
  unfold inSet counted WindowState.entries Store.get
  cases hlive : s.zsets.live c.time (windowKey key) with
  | none => exact .inl rfl
  | some e => exact .inr ⟨e, Store.eq_of_live hlive, rfl⟩

theorem Small.inSet (hs : Small key spec s) (h : spec.Valid) : ((inSet key spec s c).length : Int) ≤
    spec.requests ∧
    ∀ x ∈ TrafficPlatform.inSet key spec s c, 0 ≤ x.1 ∧ c.nowMs < x.1 + spec.windowSeconds * 1000 := by
  have hreq := h.requests_pos
  rcases inSet_cases key spec s c with hnil | ⟨e, he, hset⟩
  · rw [hnil]
    exact ⟨by simpa using hreq.le, by simp⟩
  · rw [hset]
    obtain ⟨hlen, hpos⟩ := hs e he
    have hle : (zremrangebyscore (c.nowMs - spec.windowSeconds * 1000) e.value).length ≤
        e.value.length :=
      List.length_filter_le _ _
    refine ⟨by omega, fun x hx => ?_⟩
    obtain ⟨hx, hpurge⟩ := List.mem_filter.1 hx
    have hx := hpos x hx
    simp only [hx, decide_true, Bool.true_and, Bool.not_eq_true', decide_eq_false_iff_not] at hpurge
    omega

theorem Small.next (hs : Small key spec s) (h : spec.Valid) (hclock : OneClock c) :
    Small key spec (RateLimitAlgorithm.slidingWindow.inDoubles key spec s c).2 := by
  obtain ⟨hlen, hpos⟩ := hs.inSet h (c := c)
  have hnow : 0 ≤ c.nowMs := hclock.nowMs ▸ hclock.time_nonneg
  intro e he
  by_cases hlt : ((TrafficPlatform.inSet key spec s c).length : Int) < spec.requests
  · rw [(sliding_step_of_lt hlt).2] at he
    rw [pexpire_set_value he, zadd]
    have hle : ((TrafficPlatform.inSet key spec s c).filter fun e => e.2 != c.member).length ≤ _ :=
      List.length_filter_le _ _
    refine ⟨by rw [List.length_append, List.length_singleton]; omega, fun x hx => ?_⟩
    rcases List.mem_append.1 hx with hx | hx
    · exact (hpos x (List.mem_filter.1 hx).1).1
    · rw [List.mem_singleton.1 hx]
      exact hnow
  · rw [(sliding_step_of_not_lt hlt).2] at he
    rw [putZset_value he]
    exact ⟨hlen, fun x hx => (hpos x hx).1⟩

theorem untilOldestLeaves_spec {entries : List (Int × Member)} (hne : entries ≠ []) :
    ∃ x ∈ entries, untilOldestLeaves spec c entries = x.1 + spec.windowSeconds * 1000 - c.nowMs := by
  unfold untilOldestLeaves
  cases hmin : (entries.map (·.1)).min? with
  | none => exact absurd (List.map_eq_nil_iff.1 (List.min?_eq_none_iff.1 hmin)) hne
  | some oldest =>
    obtain ⟨x, hx, rfl⟩ := List.mem_map.1 (List.min?_mem hmin)
    exact ⟨x, hx, rfl⟩

theorem sliding_retry (h : spec.Valid) (hs : Small key spec s) (hclock : OneClock c)
    (hr : (RateLimitAlgorithm.slidingWindow.inDoubles key spec s c).1 = .ok r)
    (hblocked : r.allowed = false) :
    Honest .slidingWindow key spec c r (RateLimitAlgorithm.slidingWindow.inDoubles key spec s c).2 := by
  have hreq := h.requests_pos
  by_cases hlt : ((TrafficPlatform.inSet key spec s c).length : Int) < spec.requests
  · obtain rfl := Except.ok.inj (hr.symm.trans (sliding_step_of_lt hlt).1)
    rw [slidingResult, if_pos hlt] at hblocked
    cases hblocked
  obtain ⟨hresult, hz⟩ := sliding_step_of_not_lt hlt
  obtain rfl := Except.ok.inj (hr.symm.trans hresult)
  obtain ⟨hlen, hpos⟩ := hs.inSet h (c := c)
  have hne : TrafficPlatform.inSet key spec s c ≠ [] := by
    intro hnil
    rw [hnil] at hlt
    exact hlt (by simpa using hreq)
  obtain ⟨oldest, hmem, huntil⟩ := @untilOldestLeaves_spec spec c _ hne
  obtain ⟨hold, hin⟩ := hpos oldest hmem
  have hretry : (slidingResult spec c (TrafficPlatform.inSet key spec s c)).retryAfter =
      msToSecondsCeil (oldest.1 + spec.windowSeconds * 1000 - c.nowMs) := by
        rw [slidingResult, if_neg hlt, huntil]
  have hone : 1 ≤ msToSecondsCeil (oldest.1 + spec.windowSeconds * 1000 - c.nowMs) :=
    one_le_msToSecondsCeil.2 (by omega)
  refine .of_wait hretry hone fun c' hc' hwait => ?_
  -- the oldest entry is removed, or the whole set is gone
  have hshort :
      ((TrafficPlatform.inSet key spec (RateLimitAlgorithm.slidingWindow.inDoubles key spec s c).2
        c').length : Int) <
      spec.requests := by
    rcases inSet_cases key spec (RateLimitAlgorithm.slidingWindow.inDoubles key spec s c).2 c'
      with hnil | ⟨e, he, hset⟩
    · rw [hnil]
      simpa using hreq
    · rw [hz] at he
      rw [hset, putZset_value he]
      have hwait := hclock.nowMs_add hc' hwait
      have hceil := le_msToSecondsCeil (oldest.1 + spec.windowSeconds * 1000 - c.nowMs)
      have hgone : oldest.1 ≤ c'.nowMs - spec.windowSeconds * 1000 := by omega
      have hless : (zremrangebyscore (c'.nowMs - spec.windowSeconds * 1000)
          (TrafficPlatform.inSet key spec s c)).length <
          (TrafficPlatform.inSet key spec s c).length :=
        List.length_filter_lt_length_iff_exists.2 ⟨oldest, hmem, by simp [hold, hgone]⟩
      omega
  refine ⟨_, (sliding_step_of_lt hshort).1, ?_⟩
  rw [slidingResult, if_pos hshort]

/-! ### The token bucket -/

/-- The seconds that a check reports which has found less than a token. -/
def waitSeconds (fl : ℚ → ℚ) (spec : RateLimitSpec) (level : ℚ) : Int :=
  msToSecondsCeil ⌈waitMs fl spec level⌉

/-- In that many seconds from the time of `c`, the refill takes the level to one token. -/
def Refilled (fl : ℚ → ℚ) (spec : RateLimitSpec) (c : LimiterCheck) (level : ℚ) : Prop :=
  1 ≤ fl (level + fl (fl (fl (c.now + waitSeconds fl spec level) - fl c.now) * spec.refillRate fl))

theorem waitSeconds_pos {fl : ℚ → ℚ} (hfl : Double.Rounding fl) (h : spec.Valid) {level : ℚ}
    (hlt : level < 1) :
    1 ≤ waitSeconds fl spec level := by
  have hmissing : 0 < fl (1 - level) := hfl.pos (sub_pos.2 hlt)
  have hwait : 0 < waitMs fl spec level :=
    hfl.pos (mul_pos (hfl.pos (div_pos hmissing (h.refillRate_pos hfl))) (by norm_num))
  exact one_le_msToSecondsCeil.2 (Int.ceil_pos.2 hwait)

/-- The doubles matter only just before a whole second: reported seconds that are more than the time
to a token, by a 2^50th of the clock, refill the bucket. -/
theorem refilled_of_slack (h : spec.Valid) {level : ℚ} (hlt : level < 1) (hnow : 0 ≤ c.now)
    (hslack : (1 - level) * spec.windowSeconds / spec.requests +
      (c.now + waitSeconds Double.round spec level) / 2 ^ 50 ≤ waitSeconds Double.round spec level) :
    Refilled Double.round spec c level := by
  have hfl := Double.rounding_round
  have hwindow : (0 : ℚ) < spec.windowSeconds := by exact_mod_cast h.window_pos
  have hrequests : (0 : ℚ) < spec.requests := by exact_mod_cast h.requests_pos
  have hn : (0 : ℚ) ≤ waitSeconds Double.round spec level := by
    exact_mod_cast zero_le_one.trans (waitSeconds_pos hfl h hlt)
  have hneed : (1 - level) * spec.windowSeconds / spec.requests *
      (spec.requests / spec.windowSeconds) = 1 - level := by field_simp
  have hneed_nonneg : 0 ≤ (1 - level) * spec.windowSeconds / spec.requests :=
    div_nonneg (mul_nonneg (sub_nonneg.2 hlt.le) hwindow.le) hrequests.le
  have hrate := Double.le_round (div_pos hrequests hwindow).le
  have hpos : (0 : ℚ) < spec.requests / spec.windowSeconds := div_pos hrequests hwindow
  unfold Refilled RateLimitSpec.refillRate
  generalize (1 - level) * (spec.windowSeconds : ℚ) / spec.requests = need at *
  generalize (waitSeconds Double.round spec level : ℚ) = n at *
  generalize (spec.requests / spec.windowSeconds : ℚ) = rate at *
  -- the clock is rounded twice, the difference, the rate and the product once each
  have hend := Double.le_round (add_nonneg hnow hn)
  have hstart := Double.round_le hnow
  have hdelta : need + 6 / 2 ^ 53 * (c.now + n) ≤ Double.round (c.now + n) - Double.round c.now := by
    linarith
  have hdelta_nonneg : 0 ≤ Double.round (c.now + n) - Double.round c.now := by linarith
  generalize Double.round (c.now + n) - Double.round c.now = delta at *
  have hround := Double.le_round hdelta_nonneg
  have hprod : (1 - 1 / 2 ^ 53) * delta * ((1 - 1 / 2 ^ 53) * rate) ≤
      Double.round delta * Double.round rate :=
    mul_le_mul hround hrate (mul_nonneg (by norm_num) hpos.le) (hfl.nonneg hdelta_nonneg)
  have hgain := Double.le_round (mul_nonneg (hfl.nonneg hdelta_nonneg) (hfl.nonneg hpos.le))
  have hfactor : need ≤ (1 - 1 / 2 ^ 53) ^ 3 * delta := by linarith
  have hmissing : 1 - level ≤ Double.round (Double.round delta * Double.round rate) := by
    calc 1 - level = need * rate := hneed.symm
      _ ≤ (1 - 1 / 2 ^ 53) ^ 3 * delta * rate := mul_le_mul_of_nonneg_right hfactor hpos.le
      _ = (1 - 1 / 2 ^ 53) * ((1 - 1 / 2 ^ 53) * delta * ((1 - 1 / 2 ^ 53) * rate)) := by ring
      _ ≤ (1 - 1 / 2 ^ 53) * (Double.round delta * Double.round rate) :=
        mul_le_mul_of_nonneg_left hprod (by norm_num)
      _ ≤ _ := hgain
  exact hfl.one ▸ hfl.mono (by linarith)

/-- The hash lives for the time that a check reports. -/
theorem waitSeconds_le_ttlMs {fl : ℚ → ℚ} (hfl : Double.Rounding fl) (h : spec.Valid) {level : ℚ}
    (hnonneg : 0 ≤ level) :
    waitSeconds fl spec level * 1000 ≤ spec.ttlMs fl := by
  have hrate := h.refillRate_pos hfl
  have hmissing : fl (1 - level) ≤ fl spec.capacity := by
    refine hfl.mono ((sub_le_self 1 hnonneg).trans ?_)
    exact_mod_cast h.capacity_pos
  have hwait : waitMs fl spec level ≤ fl (fl (fl spec.capacity / spec.refillRate fl) * 1000) :=
    hfl.mono (mul_le_mul_of_nonneg_right (hfl.mono (div_le_div_of_nonneg_right hmissing hrate.le))
      (by norm_num))
  have hceil := (Int.ceil_le_floor_add_one (waitMs fl spec level)).trans
    (Int.add_le_add_right (Int.floor_le_floor hwait) 1)
  have hround : waitSeconds fl spec level * 1000 ≤ max 0 (⌈waitMs fl spec level⌉ + 999) := by
    unfold waitSeconds msToSecondsCeil
    omega
  have hpos := h.ttlMs_pos hfl
  rw [h.ttlMs_eq hfl] at hpos ⊢
  omega

theorem levelFound_later {fl : ℚ → ℚ} (hfl : Double.Rounding fl) {level : ℚ}
    (hhash : s.hashes (tokenKey key) = some ⟨⟨level, fl c.now⟩, some (c.time + spec.ttlMs fl)⟩)
    (hle : c.now ≤ c'.now) :
    levelFound fl key spec s ⟨c'.now, c'.time⟩ = if c'.time ≤ c.time + spec.ttlMs fl then
      min (fl spec.capacity) (fl (level + fl (fl (fl c'.now - fl c.now) * spec.refillRate fl))) else
          fl spec.capacity := by
  by_cases hlive : c'.time ≤ c.time + spec.ttlMs fl
  · have hentry : s.hashes.live c'.time (tokenKey key) = _ := Store.live_some hhash fun t ht => by
      obtain rfl := Option.some.inj ht
      exact hlive
    have hdelta : 0 ≤ fl (fl c'.now - fl c.now) := hfl.nonneg (sub_nonneg.2 (hfl.mono hle))
    simp only [levelFound, Store.get, hentry, Option.map_some, Option.getD_some,
      max_eq_right hdelta, if_pos hlive]
  · rw [if_neg hlive]
    exact levelFound_of_dead hfl (Store.live_expired hhash rfl (not_le.1 hlive))

/-- A check of a bucket whose last check was `c`. -/
theorem token_later_iff (h : spec.Valid) {level : ℚ}
    (hhash : s.hashes (tokenKey key) =
      some ⟨⟨level, Double.round c.now⟩, some (c.time + spec.ttlMs Double.round)⟩)
    (c' : LimiterCheck) (hle : c.now ≤ c'.now) :
    (∃ r, (RateLimitAlgorithm.tokenBucket.inDoubles key spec s c').1 = .ok r ∧ r.allowed = true) ↔
      (c'.time ≤ c.time + spec.ttlMs Double.round → 1 ≤ Double.round (level +
        Double.round (Double.round (Double.round c'.now - Double.round c.now) *
          spec.refillRate Double.round))) := by
  have hfl := Double.rounding_round
  have hfound := levelFound_later hfl hhash hle
  obtain ⟨hresult, -⟩ :=
    token_step hfl h (Eq.refl (levelFound Double.round key spec s ⟨c'.now, c'.time⟩))
  have hallowed : ∀ level', (tokenResult Double.round spec level').allowed = true ↔ 1 ≤ level' := by
    intro level'
    unfold tokenResult
    split <;> simp [*]
  rw [hresult, hfound]
  simp only [Except.ok.injEq, exists_eq_left', hallowed]
  split
  · simp [*, h.one_le_capacity hfl]
  · simp [*, h.one_le_capacity hfl]

theorem token_retry_iff (h : spec.Valid)
    (hs : ∀ e, s.hashes (tokenKey key) = some e → 0 ≤ e.value.tokens) (hclock : OneClock c)
    (hr : (RateLimitAlgorithm.tokenBucket.inDoubles key spec s c).1 = .ok r)
    (hblocked : r.allowed = false) :
    Honest .tokenBucket key spec c r (RateLimitAlgorithm.tokenBucket.inDoubles key spec s c).2 ↔
      Refilled Double.round spec c (levelFound Double.round key spec s ⟨c.now, c.time⟩) := by
  have hfl := Double.rounding_round
  have hnonneg := levelFound_nonneg hfl h hs ⟨c.now, c.time⟩
  obtain ⟨hresult, hhash⟩ :=
    token_step hfl h (Eq.refl (levelFound Double.round key spec s ⟨c.now, c.time⟩))
  generalize levelFound Double.round key spec s ⟨c.now, c.time⟩ = level at hnonneg hresult hhash ⊢
  obtain rfl := Except.ok.inj (hr.symm.trans hresult)
  have hlt : ¬ 1 ≤ level := by
    intro hle
    rw [tokenResult, if_pos hle] at hblocked
    cases hblocked
  rw [if_neg hlt] at hhash
  have hretry : (tokenResult Double.round spec level).retryAfter =
      waitSeconds Double.round spec level := by
    rw [tokenResult, if_neg hlt, waitSeconds]
  have hone := waitSeconds_pos hfl h (not_le.1 hlt)
  constructor
  · -- the check at the reported time
    intro hhonest
    have hclock' := hclock.after (n := waitSeconds Double.round spec level) (by omega)
    have hle : c.now ≤ c.now + waitSeconds Double.round spec level :=
      le_add_of_nonneg_right (by exact_mod_cast (show 0 ≤ waitSeconds Double.round spec level by omega))
    refine (token_later_iff h hhash ⟨_, 0, _⟩ hle).1
      (hhonest.allowed _ hclock' (by rw [hretry])) ?_
    exact Int.add_le_add_left (waitSeconds_le_ttlMs hfl h hnonneg) _
  · intro hrefilled
    refine .of_wait hretry hone fun c' hc' hwait => ?_
    have hpos : (1 : ℚ) ≤ waitSeconds Double.round spec level := by exact_mod_cast hone
    refine (token_later_iff h hhash c' (by linarith)).2 fun _ => hrefilled.trans (hfl.mono ?_)
    have hdelta :
        Double.round (Double.round (c.now + waitSeconds Double.round spec level) -
          Double.round c.now) ≤
        Double.round (Double.round c'.now - Double.round c.now) :=
          hfl.mono (sub_le_sub_right (hfl.mono hwait) _)
    exact add_le_add (le_refl level)
      (hfl.mono (mul_le_mul_of_nonneg_right hdelta (h.refillRate_pos hfl).le))

/-! ### Every run -/

variable (key s) in
/-- On one clock that does not go back, the report of a blocked check is honest, except that of a
fixed window whose counter expires in a whole number of seconds, and that of a token bucket which
the doubles do not refill in the seconds that they have computed. -/
theorem retry_after_honest_iff (a : RateLimitAlgorithm) (h : spec.Valid) (hs : Unused key s)
    (cs : List LimiterCheck) (c : LimiterCheck) (hclock : ∀ x ∈ cs ++ [c], OneClock x)
    (hsorted : (cs ++ [c]).Pairwise fun x x' => x.now ≤ x'.now) (r : RateLimitResult)
    (hr : (a.inDoubles key spec (after (a.inDoubles key spec) s cs) c).1 = .ok r)
    (hblocked : r.allowed = false) :
    Honest a key spec c r (a.inDoubles key spec (after (a.inDoubles key spec) s cs) c).2 ↔
      (a = .fixedWindow → ¬ (1000 : Int) ∣
          pttl c.time (fixedKey key) (after (a.inDoubles key spec) s cs).counters) ∧
        (a = .tokenBucket → Refilled Double.round spec c
          (levelFound Double.round key spec (after (a.inDoubles key spec) s cs) ⟨c.now, c.time⟩)) := by
  have hstart : ∀ x ∈ cs ++ [c], (0 : ℚ) ≤ x.now := fun x hx => (hclock x hx).now_nonneg
  cases a with
  | fixedWindow =>
    obtain ⟨-, -, counter, hcounts⟩ := after_invariant WindowCheck.now OneClock
      (I := fun _ s => ∃ counter, Counts key counter s) (fun ⟨_, hc⟩ _ _ => ⟨_, (fixed_step h hc).2⟩)
      ⟨none, hs.counters, by simp⟩ hsorted hstart hclock
    rw [fixed_retry_iff h hcounts (hclock c (by simp)) hr hblocked]
    simp
  | slidingWindow =>
    obtain ⟨-, -, hsmall⟩ := after_invariant WindowCheck.now OneClock
      (I := fun _ s => Small key spec s) (fun hs _ hc => hs.next h hc)
        (fun e he => by rw [hs.zsets] at he; cases he)
      hsorted hstart hclock
    exact iff_of_true (sliding_retry h hsmall (hclock c (by simp)) hr hblocked) (by simp)
  | tokenBucket =>
    have hpos : ∀ e, (after (RateLimitAlgorithm.tokenBucket.inDoubles key spec) s cs).hashes
        (tokenKey key) = some e →
        0 ≤ e.value.tokens :=
      run_invariant
        (I := fun s : LimiterStore => ∀ e, s.hashes (tokenKey key) = some e → 0 ≤ e.value.tokens)
        (fun _ c hs => tokens_nonneg Double.rounding_round h hs c)
          (fun e he => by rw [hs.hashes] at he; cases he) cs
    rw [token_retry_iff h hpos (hclock c (by simp)) hr hblocked]
    simp

end

/-- One check a second: the one half a second after the first is told to wait for a second. -/
theorem retry_after_honest_half : Honest .fixedWindow [] sampleSpec ⟨1 / 2, 2, 500⟩ ⟨false, 1, 0, 1⟩
    (RateLimitAlgorithm.fixedWindow.inDoubles [] sampleSpec
      (after (RateLimitAlgorithm.fixedWindow.inDoubles [] sampleSpec) LimiterStore.empty
          [⟨0, 1, 0⟩]) ⟨1 / 2, 2, 500⟩).2 :=
  (retry_after_honest_iff [] LimiterStore.empty .fixedWindow sampleSpec_valid ⟨rfl, rfl, rfl⟩
    [⟨0, 1, 0⟩] ⟨1 / 2, 2, 500⟩
    (by decide +kernel) (by decide +kernel) ⟨false, 1, 0, 1⟩ (by decide +kernel) rfl).2
    ⟨fun _ => by decide +kernel, by simp⟩

/-- One request in 161 seconds. -/
def slowSpec : RateLimitSpec := ⟨1, 161, none⟩

/-- At the very end of a fixed window the blocked caller is told to come back at once, and gets no
header. The empty bucket of one request in 161 seconds is refilled to less than a token in 161
seconds, since 161 times the double that is nearest to 1/161 is less than one. -/
theorem retry_after_zero : ¬ ∃ a : RateLimitAlgorithm, a ≠ .slidingWindow ∧
    ∀ (key : RedisKey) (spec : RateLimitSpec)
    (s : LimiterStore) (cs : List LimiterCheck) (c : LimiterCheck) (r : RateLimitResult),
      spec.Valid → Unused key s →
    (∀ x ∈ cs ++ [c], OneClock x) → (cs ++ [c]).Pairwise (fun x x' => x.now ≤ x'.now) →
    (a.inDoubles key spec (after (a.inDoubles key spec) s cs) c).1 = .ok r → r.allowed = false →
    Honest a key spec c r (a.inDoubles key spec (after (a.inDoubles key spec) s cs) c).2 := by
  rintro ⟨a, hne, hall⟩
  cases a with
  | fixedWindow =>
    have h := hall [] sampleSpec LimiterStore.empty [⟨0, 1, 0⟩] ⟨1, 2, 1000⟩
      ⟨false, 1, 0, 0⟩ sampleSpec_valid
      ⟨rfl, rfl, rfl⟩ (by decide +kernel) (by decide +kernel) (by decide +kernel) rfl
    exact absurd h.positive (by decide)
  | slidingWindow => exact hne rfl
  | tokenBucket =>
    have h := hall [] slowSpec LimiterStore.empty [⟨0, 1, 0⟩] ⟨0, 2, 0⟩ ⟨false, 1, 0, 161⟩
      ⟨by decide, by decide, by simp [slowSpec]⟩ ⟨rfl, rfl, rfl⟩ (by decide +kernel) (by decide +kernel)
      (by decide +kernel) rfl
    obtain ⟨r, hr, hallowed⟩ := h.allowed ⟨161, 3, 161000⟩ (by decide +kernel) (by decide +kernel)
    have hblocked : (RateLimitAlgorithm.tokenBucket.inDoubles [] slowSpec
        (RateLimitAlgorithm.tokenBucket.inDoubles [] slowSpec
          (after (RateLimitAlgorithm.tokenBucket.inDoubles [] slowSpec)
          LimiterStore.empty [⟨0, 1, 0⟩]) ⟨0, 2, 0⟩).2 ⟨161, 3, 161000⟩).1 = .ok ⟨false, 1, 0, 1⟩ :=
            by decide +kernel
    obtain rfl := Except.ok.inj (hr.symm.trans hblocked)
    cases hallowed

end TrafficPlatform
