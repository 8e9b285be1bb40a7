import TrafficPlatform.RateLimit.SlidingWindow

/-!
# The fixed window limiter

A run of checks on one key: the key is a `Kit.Counter` that expires a window after it was created
(`fixed_check`). From the first check that finds no counter until it expires, the first `requests`
checks are allowed and the others are not; an interval as long as the window meets at most two
counters.
-/

namespace TrafficPlatform
open Kit

/-- A check of any strategy. -/
abbrev LimiterCheck : Type := WindowCheck

def fixedKey (key : RedisKey) : RedisKey := .text "rl" :: .text "fw" :: key

/-- The check creates the counter: it finds none. -/
def Creates (key : RedisKey) (s : LimiterStore) (c : LimiterCheck) : Prop :=
  s.counters.live c.time (fixedKey key) = none

instance (key : RedisKey) (s : LimiterStore) (c : LimiterCheck) : Decidable (Creates key s c) :=
  inferInstanceAs (Decidable (_ = none))

/-- Redis after some checks, their results, and those since the counter was created. -/
structure FixedRun where
  redis : LimiterStore
  log : List (LimiterCheck × RateLimitResult)
  since : List (LimiterCheck × RateLimitResult)

namespace FixedRun

/-- How many checks were allowed since the counter was created. -/
def allowed (r : FixedRun) : Nat := r.since.countP (·.2.allowed)

/-- The checks that a check finds made since the counter was created. -/
def found (key : RedisKey) (r : FixedRun) (c : LimiterCheck) : List (LimiterCheck × RateLimitResult) :=
  if Creates key r.redis c then [] else r.since

def next (key : RedisKey) (spec : RateLimitSpec) (r : FixedRun) (c : LimiterCheck) : FixedRun :=
  let (result, redis) := FixedWindowLimiter.check key spec c.time r.redis
  ⟨redis, r.log ++ [(c, result)], r.found key c ++ [(c, result)]⟩

/-- While fewer than `requests` checks were allowed since the counter was created, a check is. -/
def Admits (key : RedisKey) (spec : RateLimitSpec) (r : FixedRun) (c : LimiterCheck) : Prop :=
  ((r.found key c).countP (·.2.allowed) : Int) < spec.requests →
    (FixedWindowLimiter.check key spec c.time r.redis).1.allowed = true

end FixedRun

/-- When a counter that is created expires. -/
def RateLimitSpec.life (spec : RateLimitSpec) (time : Millis) : Millis :=
  time + spec.windowSeconds * 1000

/-- The key holds the counter. -/
structure Counts (key : RedisKey) (c : Option (Counter Millis)) (s : LimiterStore) : Prop where
  entry : s.counters (fixedKey key) = c.map fun c => ⟨(c.used : Int), some c.expiry⟩
  used_pos : ∀ c' ∈ c, 0 < c'.used

/-- What the limiter reports when a check has hit the counter. -/
def fixedResult (spec : RateLimitSpec) (time : Millis) (c : Counter Millis) : RateLimitResult :=
  if (c.used : Int) ≤ spec.requests then ⟨true, spec.requests, spec.requests - c.used, 0⟩
  else ⟨false, spec.requests, 0, msToSecondsCeil (c.expiry - time)⟩

section
variable {key : RedisKey} {spec : RateLimitSpec} {s : LimiterStore} {c : Option (Counter Millis)}
    {time : Millis}

theorem Counts.live {c : Counter Millis} (h : Counts key (some c) s) (hle : time ≤ c.expiry) :
    s.counters.live time (fixedKey key) = some ⟨(c.used : Int), some c.expiry⟩ :=
  Store.live_some h.entry fun _ ht => Option.some.inj ht ▸ hle

theorem Counts.dead (h : Counts key c s) (hlt : ∀ c' ∈ c, c'.expiry < time) :
    s.counters.live time (fixedKey key) = none := by
  cases c with
  | none => exact Store.live_of_none h.entry
  | some c => exact Store.live_expired h.entry rfl (hlt c rfl)

/-- The script hits the counter of the key. -/
theorem fixed_check (hw : 0 < spec.windowSeconds) (h : Counts key c s) :
    (FixedWindowLimiter.check key spec time s).1 = fixedResult spec time
      (Counter.hit spec.life time c) ∧
      Counts key (some (Counter.hit spec.life time c))
          (FixedWindowLimiter.check key spec time s).2 := by
  have hms : 0 < spec.windowSeconds * 1000 := by omega
  -- the counter of a live key, or a new one
  have hcases : (∃ c', c = some c' ∧ time ≤ c'.expiry) ∨ (s.counters.live time (fixedKey key) = none ∧
      Counter.hit spec.life time c = ⟨1, spec.life time⟩) := by
    cases c with
    | none => exact .inr ⟨h.dead (by simp), rfl⟩
    | some c =>
      rcases le_or_gt time c.expiry with hle | hlt
      · exact .inl ⟨c, rfl, hle⟩
      · exact .inr ⟨h.dead fun c' hc' => Option.some.inj hc' ▸ hlt, if_neg (not_le_of_gt hlt)⟩
  unfold FixedWindowLimiter.check fixedWindowLua
  rw [← fixedKey]
  rcases hcases with ⟨c, rfl, hle⟩ | ⟨hdead, hhit⟩
  · have hlive := h.live hle
    have hhit : Counter.hit spec.life time (some c) = ⟨c.used + 1, c.expiry⟩ := if_pos hle
    have hpos := h.used_pos c rfl
    have hne : ¬ ((c.used : Int) + 1 = 1) := by omega
    have hset := Store.set_of_live hlive ((c.used : Int) + 1)
    have hpttl : pttl time (fixedKey key) (s.counters.set time (fixedKey key) ((c.used : Int) + 1))
        = c.expiry - time := by
      rw [pttl, Store.live_set_self, hlive]
      rfl
    simp only [Store.get, hlive, Option.map_some, Option.getD_some, if_neg hne, hpttl, hhit,
      fixedResult]
    refine ⟨?_, ?_⟩
    · by_cases hle : (c.used : Int) + 1 ≤ spec.requests
      · rw [if_neg (not_lt_of_ge hle), if_pos (by exact_mod_cast hle)]
        rfl
      · rw [if_pos (lt_of_not_ge hle), if_neg (by exact_mod_cast hle)]
        rfl
    · refine ⟨?_, fun c' hc' => by cases hc'; exact Nat.succ_pos _⟩
      split <;> exact hset
  · have hset := @pexpire_set _ s.counters (fixedKey key) time 1 _ hms
    have hlive : (pexpire time (fixedKey key) (spec.windowSeconds * 1000)
        (s.counters.set time (fixedKey key) 1)).live
        time (fixedKey key) = some ⟨1, some (spec.life time)⟩ :=
      Store.live_some hset fun t ht => by
        obtain rfl := Option.some.inj ht
        exact Int.le_add_of_nonneg_right hms.le
    have hpttl : pttl time (fixedKey key) (pexpire time (fixedKey key) (spec.windowSeconds * 1000)
        (s.counters.set time (fixedKey key) 1)) = spec.life time - time := by
      rw [pttl, hlive]
    simp only [Store.get, hdead, Option.map_none, Option.getD_none, zero_add, if_true, hpttl, hhit,
      fixedResult]
    refine ⟨?_, ?_⟩
    · by_cases hle : 1 ≤ spec.requests
      · rw [if_neg (not_lt_of_ge hle), if_pos (by exact_mod_cast hle)]
        rfl
      · rw [if_pos (lt_of_not_ge hle), if_neg (by exact_mod_cast hle)]
        rfl
    · refine ⟨?_, fun c' hc' => by cases hc'; exact Nat.one_pos⟩
      split <;> exact hset

/-! ### Runs -/

variable {r : FixedRun} {x : LimiterCheck} {xs : List LimiterCheck}

theorem Counts.creates_iff (h : Counts key c r.redis) : Creates key r.redis x ↔ ∀ c' ∈ c,
    c'.expiry < x.time := by
  refine ⟨fun hdead c' hc' => lt_of_not_ge fun hle => ?_, h.dead⟩
  obtain rfl : c = some c' := hc'
  rw [Creates, h.live hle] at hdead
  cases hdead

theorem fixedResult_allowed (c : Counter Millis) :
    (fixedResult spec time c).allowed = decide ((c.used : Int) ≤ spec.requests) := by
  unfold fixedResult
  split <;> simp [*]

/-- The counter counts the checks since it was created, beyond `requests` also the rejected ones. -/
structure Counted (key : RedisKey) (spec : RateLimitSpec) (c : Option (Counter Millis))
    (r : FixedRun) : Prop where
  counts : Counts key c r.redis
  allowed : (r.allowed : Int) = min (((c.map (·.used)).getD 0 : Nat) : Int) spec.requests

/-- The check that hits a counter is one more than those since it was created. -/
theorem Counted.found (h : Counted key spec c r) (hr : 0 ≤ spec.requests) (x : LimiterCheck) :
    ((r.found key x).countP (·.2.allowed) : Int) =
        min (((Counter.hit spec.life x.time c).used : Int) - 1) spec.requests := by
  unfold FixedRun.found
  by_cases hnew : Creates key r.redis x
  · have hhit : Counter.hit spec.life x.time c = ⟨1, spec.life x.time⟩ := by
      have hlt := h.counts.creates_iff.1 hnew
      cases c with
      | none => rfl
      | some c => exact if_neg (not_le_of_gt (hlt c rfl))
    rw [if_pos hnew, hhit]
    simp [hr]
  · rw [if_neg hnew]
    rw [h.counts.creates_iff] at hnew
    push Not at hnew
    obtain ⟨c', rfl, hle⟩ := hnew
    have hhit : Counter.hit spec.life x.time (some c') = ⟨c'.used + 1, c'.expiry⟩ := if_pos hle
    have hallowed := h.allowed
    unfold FixedRun.allowed at hallowed
    rw [hallowed, hhit]
    simp

theorem Counted.next (h : Counted key spec c r) (hr : 0 ≤ spec.requests)
    (hw : 0 < spec.windowSeconds) (x : LimiterCheck) :
    Counted key spec (some (Counter.hit spec.life x.time c)) (r.next key spec x) := by
  obtain ⟨hresult, hcounts⟩ := @fixed_check _ _ _ _ x.time hw h.counts
  refine ⟨hcounts, ?_⟩
  have hfound := h.found hr x
  unfold FixedRun.allowed FixedRun.next
  dsimp only
  rw [List.countP_append, List.countP_singleton, hresult, fixedResult_allowed, Nat.cast_add, hfound]
  simp only [Option.map_some, Option.getD_some, decide_eq_true_eq]
  split <;> omega

theorem Counted.admits (h : Counted key spec c r) (hr : 0 ≤ spec.requests)
    (hw : 0 < spec.windowSeconds) (x : LimiterCheck) :
    r.Admits key spec x := by
  intro hlt
  rw [h.found hr] at hlt
  rw [(fixed_check hw h.counts).1, fixedResult_allowed, decide_eq_true_eq]
  omega

theorem Counted.run (h : Counted key spec c r) (xs : List LimiterCheck) (hr : 0 ≤ spec.requests)
    (hw : 0 < spec.windowSeconds) :
    Always (FixedRun.next key spec) (fun r => (r.allowed : Int) ≤ spec.requests) r xs ∧
      Meets (FixedRun.next key spec) (FixedRun.Admits key spec) r xs := by
  have hle : (r.allowed : Int) ≤ spec.requests := h.allowed ▸ min_le_right _ _
  induction xs generalizing r c with
  | nil => exact ⟨hle, trivial⟩
  | cons x xs ih =>
    have hnext := h.next hr hw x
    obtain ⟨halways, hmeets⟩ := ih hnext (hnext.allowed ▸ min_le_right _ _)
    exact ⟨⟨hle, halways⟩, h.admits hr hw x, hmeets⟩

theorem Counts.run (h : Counts key c r.redis) (hr : 0 ≤ spec.requests) (hw : 0 < spec.windowSeconds)
    (lo hi : Millis) :
    (run (FixedRun.next key spec) r xs).log.countP
      (fun x => x.2.allowed && decide (lo ≤ x.1.time ∧ x.1.time ≤ hi)) =
      r.log.countP (fun x => x.2.allowed && decide (lo ≤ x.1.time ∧ x.1.time ≤ hi)) +
        Counter.grantedIn spec.life spec.requests.toNat lo hi c (xs.map (·.time)) := by
  induction xs generalizing r c with
  | nil => simp [Kit.run, Counter.grantedIn, Counter.hits]
  | cons x xs ih =>
    obtain ⟨hresult, hcounts⟩ := @fixed_check _ _ _ _ x.time hw h
    have hlog : (r.next key spec x).log = r.log ++
      [(x, (FixedWindowLimiter.check key spec x.time r.redis).1)] := rfl
    have hle : ((Counter.hit spec.life x.time c).used : Int) ≤ spec.requests ↔
        (Counter.hit spec.life x.time c).used ≤ spec.requests.toNat := by omega
    rw [run_cons, ih (r := r.next key spec x) hcounts, List.map_cons, Counter.grantedIn_cons, hlog,
      List.countP_append,
      List.countP_singleton, hresult, fixedResult_allowed]
    simp only [Bool.and_eq_true, decide_eq_true_eq, hle]
    omega

variable (key spec) in
/-- From the creation of the counter to its expiry at most `requests` checks are allowed, among them
every check made before; and in every interval as long as the window at most twice as many. -/
theorem fixed_window_bound (s : LimiterStore) (xs : List LimiterCheck) (hr : 0 ≤ spec.requests)
    (hw : 0 < spec.windowSeconds) (hempty : s.counters (fixedKey key) = none)
    (hs : xs.Pairwise fun x x' => x.time ≤ x'.time) :
    Always (FixedRun.next key spec) (fun r => (r.allowed : Int) ≤ spec.requests) ⟨s, [], []⟩ xs ∧
      Meets (FixedRun.next key spec) (FixedRun.Admits key spec) ⟨s, [], []⟩ xs ∧
      ∀ lo hi : Millis, hi ≤ lo + spec.windowSeconds * 1000 →
        ((run (FixedRun.next key spec) ⟨s, [], []⟩ xs).log.countP
          (fun x => x.2.allowed && decide (lo ≤ x.1.time ∧ x.1.time ≤ hi)) : Int) ≤
          2 * spec.requests := by
  have hcounts : Counts key none s := ⟨hempty, by simp⟩
  have hcounted : Counted key spec none ⟨s, [], []⟩ := ⟨hcounts, by simp [FixedRun.allowed, hr]⟩
  obtain ⟨halways, hmeets⟩ := hcounted.run xs hr hw
  refine ⟨halways, hmeets, fun lo hi hspan => ?_⟩
  have hlife : Monotone spec.life := fun a b hle => Int.add_le_add_right hle _
  have htwo : Counter.grantedIn spec.life spec.requests.toNat lo hi none (xs.map (·.time)) ≤ 2 *
      spec.requests.toNat :=
    Counter.grantedIn_le hlife hspan (List.pairwise_map.2 hs) none
  rw [hcounts.run (r := ⟨s, [], []⟩) hr hw, List.countP_nil]
  omega

end

/-- Two checks a second: both counters grant two, and three of the grants lie within a second. -/
theorem fixed_window_bound_five : ((run (FixedRun.next [] windowSpec) ⟨LimiterStore.empty, [], []⟩
    [⟨0, 1, 0⟩, ⟨0, 2, 900⟩, ⟨0, 3, 1000⟩, ⟨0, 4, 1001⟩, ⟨0, 5, 1900⟩]).log.countP
      (fun x => x.2.allowed && decide (900 ≤ x.1.time ∧ x.1.time ≤ 1900)) : Int) ≤ 2 *
          windowSpec.requests :=
  (fixed_window_bound [] windowSpec LimiterStore.empty _ (by decide) (by decide) rfl
    (by decide)).2.2 900 1900 (by decide)

end TrafficPlatform
