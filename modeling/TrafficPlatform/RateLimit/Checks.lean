import TrafficPlatform.Kit.Limiter
import TrafficPlatform.RateLimit.FixedWindow
import TrafficPlatform.RateLimit.TokenBucket

/-!
# What a check of each strategy reports

A strategy as a machine that answers checks on one key, and the whole result of a check by what it
finds there: a counter for the fixed window (`fixed_check`), the entries of the window for the
sliding window (`sliding_check`), a level for the token bucket (`token_check`).
-/

namespace TrafficPlatform
open Kit

/-- A check, as a step of Redis; an exception leaves Redis as it is. -/
def RateLimitAlgorithm.step (fl : ℚ → ℚ) (a : RateLimitAlgorithm) (key : RedisKey)
    (spec : RateLimitSpec) (s : LimiterStore)
    (c : LimiterCheck) : Except Failure RateLimitResult × LimiterStore :=
  match a.check fl key spec c.now c.perfCounterNs c.time s with
  | .ok (result, s') => (.ok result, s')
  | .error e => (.error e, s)

/-- A check as it runs: in the floating point of the application and of Redis. -/
abbrev RateLimitAlgorithm.inDoubles : RateLimitAlgorithm → RedisKey → RateLimitSpec → LimiterStore →
    LimiterCheck →
    Except Failure RateLimitResult × LimiterStore :=
  RateLimitAlgorithm.step Double.round

/-- The check was answered, and not allowed. -/
def Rejected (answer : Except Failure RateLimitResult) : Prop := ∃ r, answer = .ok r ∧ r.allowed = false

/-- No strategy has used the key. -/
structure Unused (key : RedisKey) (s : LimiterStore) : Prop where
  counters : s.counters (fixedKey key) = none
  zsets : s.zsets (windowKey key) = none
  hashes : s.hashes (tokenKey key) = none

/-- The application and Redis read one clock, which counts from the epoch. -/
structure OneClock (c : LimiterCheck) : Prop where
  now_nonneg : 0 ≤ c.now
  time : c.time = ⌊c.now * 1000⌋

instance (c : LimiterCheck) : Decidable (OneClock c) :=
  decidable_of_iff (0 ≤ c.now ∧ c.time = ⌊c.now * 1000⌋)
    ⟨fun h => ⟨h.1, h.2⟩, fun h => ⟨h.now_nonneg, h.time⟩⟩

theorem OneClock.nowMs {c : LimiterCheck} (h : OneClock c) : c.nowMs = c.time := by
  rw [WindowCheck.nowMs, pyInt, if_pos (mul_nonneg h.now_nonneg (by norm_num)), h.time]

theorem OneClock.time_nonneg {c : LimiterCheck} (h : OneClock c) : 0 ≤ c.time := by
  rw [h.time]
  exact Int.floor_nonneg.2 (mul_nonneg h.now_nonneg (by norm_num))

theorem OneClock.time_mono {c c' : LimiterCheck} (h : OneClock c) (h' : OneClock c')
    (hle : c.now ≤ c'.now) : c.time ≤ c'.time := by
  rw [h.time, h'.time]
  exact Int.floor_le_floor (mul_le_mul_of_nonneg_right hle (by norm_num))

theorem OneClock.time_add {c c' : LimiterCheck} {n : Int} (h : OneClock c) (h' : OneClock c')
    (hle : c.now + n ≤ c'.now) :
    c.time + n * 1000 ≤ c'.time := by
  rw [h.time, h'.time, ← Int.floor_add_intCast]
  refine Int.floor_le_floor ?_
  push_cast
  linarith

theorem OneClock.nowMs_add {c c' : LimiterCheck} {n : Int} (h : OneClock c) (h' : OneClock c')
    (hle : c.now + n ≤ c'.now) :
    c.nowMs + n * 1000 ≤ c'.nowMs := by
  rw [h.nowMs, h'.nowMs]
  exact h.time_add h' hle

section
variable {fl : ℚ → ℚ} {key : RedisKey} {spec : RateLimitSpec} {s : LimiterStore} {c : LimiterCheck}

/-! ### The fixed window -/

theorem fixed_step {counter : Option (Counter Millis)} (h : spec.Valid) (hc : Counts key counter s) :
    (RateLimitAlgorithm.fixedWindow.step fl key spec s c).1 =
        .ok (fixedResult spec c.time (Counter.hit spec.life c.time counter)) ∧
      Counts key (some (Counter.hit spec.life c.time counter))
          (RateLimitAlgorithm.fixedWindow.step fl key spec s c).2 := by
  obtain ⟨hresult, hcounts⟩ := @fixed_check _ _ _ _ c.time h.window_pos hc
  exact ⟨congrArg Except.ok hresult, hcounts⟩

/-- A check that is blocked finds the counter live, and has hit it more than `requests` times. -/
theorem fixed_blocked {counter : Option (Counter Millis)} (h : spec.Valid)
    (hblocked : (fixedResult spec c.time (Counter.hit spec.life c.time counter)).allowed = false) :
    ∃ found, counter = some found ∧ c.time ≤ found.expiry ∧
      Counter.hit spec.life c.time counter = ⟨found.used + 1, found.expiry⟩ ∧
          spec.requests < found.used + 1 := by
  have hreq := h.requests_pos
  rw [fixedResult_allowed, decide_eq_false_iff_not] at hblocked
  have hnew : ¬ Counter.hit spec.life c.time counter = ⟨1, spec.life c.time⟩ := by
    intro hhit
    rw [hhit] at hblocked
    exact hblocked (by exact_mod_cast hreq)
  cases counter with
  | none => exact absurd rfl hnew
  | some found =>
    by_cases hle : c.time ≤ found.expiry
    · have hhit : Counter.hit spec.life c.time (some found) =
        ⟨found.used + 1, found.expiry⟩ := if_pos hle
      rw [hhit] at hblocked
      exact ⟨found, rfl, hle, hhit, by push_cast at hblocked; omega⟩
    · exact absurd (if_neg hle) hnew

/-! ### The sliding window -/

/-- The entries that a check counts. -/
def inSet (key : RedisKey) (spec : RateLimitSpec) (s : LimiterStore) (c : LimiterCheck) :
    List (Int × Member) :=
  counted key spec ⟨s, []⟩ c

/-- Until the oldest entry leaves the window, in milliseconds. -/
def untilOldestLeaves (spec : RateLimitSpec) (c : LimiterCheck) (entries : List (Int × Member)) : Int :=
  match (entries.map (·.1)).min? with
  | some oldest => oldest + spec.windowSeconds * 1000 - c.nowMs
  | none => spec.windowSeconds * 1000

/-- What the limiter reports when a check has counted the entries. -/
def slidingResult (spec : RateLimitSpec) (c : LimiterCheck) (entries : List (Int × Member)) :
    RateLimitResult :=
  if (entries.length : Int) < spec.requests then
    ⟨true, spec.requests, spec.requests - entries.length - 1, 0⟩
  else ⟨false, spec.requests, 0, msToSecondsCeil (untilOldestLeaves spec c entries)⟩

/-- A check that counts less than `requests` entries adds its own. -/
theorem sliding_step_of_lt (h : ((inSet key spec s c).length : Int) < spec.requests) :
    (RateLimitAlgorithm.slidingWindow.step fl key spec s c).1 =
      .ok (slidingResult spec c (inSet key spec s c)) ∧
      (RateLimitAlgorithm.slidingWindow.step fl key spec s c).2.zsets =
        pexpire c.time (windowKey key) (spec.windowSeconds * 1000)
          ((putZset c.time (windowKey key) (inSet key spec s c) s.zsets).set c.time (windowKey key)
            (zadd c.nowMs c.member (inSet key spec s c))) := by
  unfold slidingResult
  rw [if_pos h]
  unfold inSet counted WindowState.entries windowKey WindowCheck.nowMs at h ⊢
  unfold RateLimitAlgorithm.step RateLimitAlgorithm.check SlidingWindowLimiter.check slidingWindowLua
  dsimp only at h ⊢
  rw [if_pos h]
  refine ⟨?_, rfl⟩
  have hnonneg : 0 ≤ spec.requests -
      (zremrangebyscore (pyInt (c.now * 1000) - spec.windowSeconds * 1000)
      ((s.zsets.get c.time (.text "rl" :: .text "sw" :: key)).getD [])).length - 1 := by omega
  dsimp only
  rw [max_eq_right hnonneg]
  rfl

theorem sliding_step_of_not_lt (h : ¬ ((inSet key spec s c).length : Int) < spec.requests) :
    (RateLimitAlgorithm.slidingWindow.step fl key spec s c).1 =
      .ok (slidingResult spec c (inSet key spec s c)) ∧
      (RateLimitAlgorithm.slidingWindow.step fl key spec s c).2.zsets =
        putZset c.time (windowKey key) (inSet key spec s c) s.zsets := by
  unfold slidingResult
  rw [if_neg h]
  unfold inSet counted WindowState.entries windowKey WindowCheck.nowMs at h ⊢
  unfold RateLimitAlgorithm.step RateLimitAlgorithm.check SlidingWindowLimiter.check slidingWindowLua
  dsimp only
  rw [if_neg h]
  exact ⟨rfl, rfl⟩

/-- What a check finds in the sorted set: the entries that it does not take out, and when they
expire. -/
def view (key : RedisKey) (spec : RateLimitSpec) (s : LimiterStore) (c : LimiterCheck) :
    Option (List (Int × Member) × Option Millis) :=
  (s.zsets.live c.time (windowKey key)).map fun e =>
    (zremrangebyscore (c.nowMs - spec.windowSeconds * 1000) e.value, e.expiry)

theorem inSet_view (key : RedisKey) (spec : RateLimitSpec) (s : LimiterStore) (c : LimiterCheck) :
    inSet key spec s c = ((view key spec s c).map (·.1)).getD [] := by
  unfold inSet counted WindowState.entries Store.get view
  cases s.zsets.live c.time (windowKey key) <;> rfl

theorem view_of_entry {e : Entry (List (Int × Member)) Millis} (he : s.zsets (windowKey key) = some e) :
    view key spec s c = if ∀ t, e.expiry = some t → c.time ≤ t then
      some (zremrangebyscore (c.nowMs - spec.windowSeconds * 1000) e.value, e.expiry) else none := by
  by_cases hlive : ∀ t, e.expiry = some t → c.time ≤ t
  · rw [view, Store.live_some he hlive, if_pos hlive]
    rfl
  · rw [if_neg hlive]
    push Not at hlive
    obtain ⟨t, ht, hlt⟩ := hlive
    rw [view, Store.live_expired he ht hlt]
    rfl

theorem zremrangebyscore_twice {m m' : Int} (h : m ≤ m') (entries : List (Int × Member)) :
    zremrangebyscore m' (zremrangebyscore m entries) = zremrangebyscore m' entries := by
  unfold zremrangebyscore
  rw [List.filter_filter]
  refine List.filter_congr fun e _ => ?_
  by_cases hm : e.1 ≤ m
  · simp [hm, hm.trans h]
  · simp [hm]

/-- A rejected check finds a set that is not empty, and puts back what it did not take out. -/
theorem sliding_rejected (h : spec.Valid)
    (hr : Rejected (RateLimitAlgorithm.slidingWindow.step fl key spec s c).1) :
    ∃ e, s.zsets.live c.time (windowKey key) = some e ∧
      (RateLimitAlgorithm.slidingWindow.step fl key spec s c).2.zsets (windowKey key) =
        some ⟨zremrangebyscore (c.nowMs - spec.windowSeconds * 1000) e.value, e.expiry⟩ := by
  have hreq := h.requests_pos
  obtain ⟨r, hr, hblocked⟩ := hr
  by_cases hlt : ((inSet key spec s c).length : Int) < spec.requests
  · obtain rfl := Except.ok.inj (hr.symm.trans (sliding_step_of_lt hlt).1)
    rw [slidingResult, if_pos hlt] at hblocked
    cases hblocked
  rw [(sliding_step_of_not_lt hlt).2]
  rw [inSet_view, view] at hlt ⊢
  cases hlive : s.zsets.live c.time (windowKey key) with
  | none =>
    rw [hlive] at hlt
    exact absurd hreq hlt
  | some e =>
    rw [hlive] at hlt
    simp only [Option.map_some, Option.getD_some] at hlt ⊢
    have hne : (zremrangebyscore (c.nowMs - spec.windowSeconds * 1000) e.value).isEmpty = false := by
      cases hz : zremrangebyscore (c.nowMs - spec.windowSeconds * 1000) e.value with
      | nil => rw [hz] at hlt; exact absurd hreq hlt
      | cons x xs => rfl
    exact ⟨e, rfl, by rw [putZset, hne, if_neg (by simp), Store.set_of_live hlive]⟩

/-! ### The token bucket -/

theorem token_step (hfl : Double.Rounding fl) (h : spec.Valid) {level : ℚ}
    (hlevel : levelFound fl key spec s ⟨c.now, c.time⟩ = level) :
    (RateLimitAlgorithm.tokenBucket.step fl key spec s c).1 = .ok (tokenResult fl spec level) ∧
      (RateLimitAlgorithm.tokenBucket.step fl key spec s c).2.hashes (tokenKey key) =
        some ⟨⟨if 1 ≤ level then fl (level - 1) else level, fl c.now⟩,
            some (c.time + spec.ttlMs fl)⟩ := by
  obtain ⟨hashes, hhash, hcheck⟩ := token_check hfl h hlevel
  unfold RateLimitAlgorithm.step RateLimitAlgorithm.check
  dsimp only at hcheck ⊢
  rw [hcheck]
  exact ⟨rfl, hhash⟩

theorem tokens_nonneg (hfl : Double.Rounding fl) (h : spec.Valid)
    (hs : ∀ e, s.hashes (tokenKey key) = some e → 0 ≤ e.value.tokens) (c : LimiterCheck) :
    ∀ e, (RateLimitAlgorithm.tokenBucket.step fl key spec s c).2.hashes (tokenKey key) = some e →
        0 ≤ e.value.tokens := by
  have hnonneg := levelFound_nonneg hfl h hs ⟨c.now, c.time⟩
  intro e he
  rw [(token_step hfl h rfl).2] at he
  obtain rfl := Option.some.inj he
  dsimp only
  split
  · exact hfl.nonneg (sub_nonneg.2 ‹_›)
  · exact hnonneg

/-- In exact arithmetic and on one clock, from the bucket's time on, a check finds the level of the
bucket. -/
def Levels (h : spec.Valid) (key : RedisKey) (b : TokenBucket h.bucket) (s : LimiterStore) : Prop :=
  ∀ c, OneClock c → b.time ≤ c.now → levelFound id key spec s ⟨c.now, c.time⟩ = b.levelAt c.now

theorem OneClock.atOneClock (hc : OneClock c) : (⟨c.now, c.time⟩ : TokenCheck) = atOneClock c.now := by
  rw [TrafficPlatform.atOneClock, ← hc.time]

theorem Levels.unused (h : spec.Valid) (hs : Unused key s) :
    Levels h key (TokenBucket.full h.bucket 0) s := by
  intro c hc _
  rw [TokenBucket.levelAt_full]
  exact levelFound_full h (s := ⟨s, []⟩) (Store.live_of_none hs.hashes)

variable {h : spec.Valid} {b : TokenBucket h.bucket}

theorem Levels.next (hb : Levels h key b s) (hc : OneClock c) (hle : b.time ≤ c.now) :
    (RateLimitAlgorithm.tokenBucket.step id key spec s c).1 =
      .ok (tokenResult id spec (b.levelAt c.now)) ∧
      Levels h key (b.check c.now).2 (RateLimitAlgorithm.tokenBucket.step id key spec s c).2 := by
  obtain ⟨hresult, hhash⟩ := token_step Double.rounding_id h (hb c hc hle)
  refine ⟨hresult, fun c' hc' hle' => ?_⟩
  have hrefreshed :
      Refreshed h key (b.check c.now).2
          ⟨(RateLimitAlgorithm.tokenBucket.step id key spec s c).2, []⟩ := by
    rw [Refreshed, hhash, b.check_level, b.check_time, hc.time]
    rfl
  rw [hc'.atOneClock]
  exact hrefreshed.levelFound h hle'

end

end TrafficPlatform
