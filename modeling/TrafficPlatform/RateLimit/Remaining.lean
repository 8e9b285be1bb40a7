import TrafficPlatform.RateLimit.Checks
import TrafficPlatform.RateLimit.ExactLog

/-!
# Remaining is exact

A check reports how many requests remain; further checks at the same time count that number down to
zero, one by one. What is left is the distance of the counter to `requests`, the room in the sorted
set, or the whole tokens of the bucket.
-/

namespace TrafficPlatform
open Kit

/-- The check comes at the same time as `c`, on the clock of the application and on that of Redis. -/
def AtSameTime (c x : LimiterCheck) : Prop := x.now = c.now ∧ x.time = c.time

instance (c x : LimiterCheck) : Decidable (AtSameTime c x) := inferInstanceAs (Decidable (_ ∧ _))

/-- The check was answered with `allowed`. -/
def Answered (answer : Except Failure RateLimitResult) (allowed : Bool) : Prop :=
  ∃ r, answer = .ok r ∧ r.allowed = allowed

section
variable {fl : ℚ → ℚ} {key : RedisKey} {spec : RateLimitSpec} {s : LimiterStore} {c x : LimiterCheck}
  {r : RateLimitResult}

/-! ### The fixed window -/

/-- A counter that has `n` hits left, and does not expire before the time of `c`. -/
def FixedLeft (key : RedisKey) (spec : RateLimitSpec) (c : LimiterCheck) (n : Nat)
    (s : LimiterStore) (xs : List LimiterCheck) :
    Prop :=
  ∃ counter, Counts key (some counter) s ∧ c.time ≤ counter.expiry ∧
    n = (spec.requests - counter.used).toNat ∧
    ∀ x ∈ xs, AtSameTime c x

theorem fixed_countsDown (h : spec.Valid) (c : LimiterCheck) :
    CountsDown (RateLimitAlgorithm.fixedWindow.step fl key spec) Answered (FixedLeft key spec c) := by
  constructor
  rintro n s x xs ⟨counter, hcounts, hlive, hn, hsame⟩
  have hx := hsame x List.mem_cons_self
  obtain ⟨hresult, hcounts'⟩ := fixed_step (c := x) h hcounts
  have hhit : Counter.hit spec.life x.time (some counter) = ⟨counter.used + 1, counter.expiry⟩ :=
    if_pos (hx.2 ▸ hlive)
  rw [hhit] at hresult hcounts'
  refine ⟨⟨_, hresult, ?_⟩, _, hcounts', hlive, ?_, fun y hy => hsame y (List.mem_cons_of_mem _ hy)⟩
  · rw [fixedResult_allowed]
    refine decide_eq_decide.2 ?_
    push_cast
    omega
  · push_cast
    omega

/-- A check leaves what it reports. -/
theorem fixed_left {counter : Option (Counter Millis)} (h : spec.Valid) (hc : Counts key counter s)
    (hr : (RateLimitAlgorithm.fixedWindow.step fl key spec s c).1 = .ok r) {xs : List LimiterCheck}
    (hsame : ∀ x ∈ xs, AtSameTime c x) :
    FixedLeft key spec c r.remaining.toNat (RateLimitAlgorithm.fixedWindow.step fl key spec s c).2
        xs ∧ 0 ≤ r.remaining := by
  obtain ⟨hresult, hcounts⟩ := fixed_step (c := c) h hc
  obtain rfl := Except.ok.inj (hr.symm.trans hresult)
  have hms : 0 ≤ spec.windowSeconds * 1000 := by
    have := h.window_pos
    omega
  have hlive : c.time ≤ (Counter.hit spec.life c.time counter).expiry := by
    have hnew : c.time ≤ spec.life c.time := Int.le_add_of_nonneg_right hms
    cases counter with
    | none => exact hnew
    | some counter =>
      simp only [Counter.hit]
      split
      · assumption
      · exact hnew
  have hleft : (fixedResult spec c.time (Counter.hit spec.life c.time counter)).remaining =
      max 0 (spec.requests - (Counter.hit spec.life c.time counter).used) := by
    unfold fixedResult
    split
    · rw [max_eq_right (by omega)]
    · rw [max_eq_left (by omega)]
  rw [hleft]
  exact ⟨⟨_, hcounts, hlive, by omega, hsame⟩, le_max_left _ _⟩

/-! ### The sliding window -/

theorem inSet_congr (hx : AtSameTime c x) : inSet key spec s x = inSet key spec s c := by
  unfold inSet counted WindowCheck.nowMs
  rw [hx.1, hx.2]

/-- The entries that a check at the same time finds after a check with a member of its own. -/
theorem inSet_next (h : spec.Valid) (hfresh : c.member ∉ (inSet key spec s c).map (·.2)) :
    inSet key spec (RateLimitAlgorithm.slidingWindow.step fl key spec s c).2 c =
      if ((inSet key spec s c).length : Int) < spec.requests then inSet key spec s c ++
        [(c.nowMs, c.member)]
      else inSet key spec s c := by
  have hms : 0 < spec.windowSeconds * 1000 := by
    have := h.window_pos
    omega
  -- what is counted is taken out by no check at the same time
  have hkeep : zremrangebyscore (c.nowMs - spec.windowSeconds * 1000) (inSet key spec s c) =
      inSet key spec s c := by
    rw [inSet_view, view]
    cases s.zsets.live c.time (windowKey key) with
    | none => rfl
    | some e => exact zremrangebyscore_twice (le_refl _) e.value
  by_cases hlt : ((inSet key spec s c).length : Int) < spec.requests
  · have hadd : zadd c.nowMs c.member (inSet key spec s c) = inSet key spec s c ++
        [(c.nowMs, c.member)] := by
      rw [zadd, List.filter_eq_self.2]
      intro e he
      have hne : e.2 ≠ c.member := fun heq => hfresh (heq ▸ List.mem_map_of_mem he)
      simpa using hne
    have hentry := (@sliding_step_of_lt fl _ _ _ _ hlt).2 ▸
      @pexpire_set _ (putZset c.time (windowKey key) (inSet key spec s c) s.zsets)
      (windowKey key) c.time (zadd c.nowMs c.member (inSet key spec s c)) _ hms
    rw [inSet_view, view_of_entry hentry, if_pos hlt, if_pos fun t ht => ?_]
    · have hself : ¬ c.nowMs ≤ c.nowMs - spec.windowSeconds * 1000 := by omega
      rw [Option.map_some, Option.getD_some, hadd]
      unfold zremrangebyscore at hkeep ⊢
      rw [List.filter_append, hkeep, List.filter_cons_of_pos (by simp [hself]), List.filter_nil]
    · obtain rfl := Option.some.inj ht
      exact Int.le_add_of_nonneg_right hms.le
  · have hresult := (@sliding_step_of_not_lt fl _ _ _ _ hlt).1
    obtain ⟨e, he, hentry⟩ := sliding_rejected h ⟨_, hresult, by rw [slidingResult, if_neg hlt]⟩
    rw [if_neg hlt, inSet_view, view_of_entry hentry,
      if_pos fun t ht => Store.live_le he ht, inSet_view, view, he]
    exact zremrangebyscore_twice (le_refl _) e.value

/-- A sorted set with room for `n` entries, and further checks with members of their own. -/
def SlidingLeft (key : RedisKey) (spec : RateLimitSpec) (c : LimiterCheck) (n : Nat) (s : LimiterStore)
    (xs : List LimiterCheck) : Prop :=
  n = (spec.requests - (inSet key spec s c).length).toNat ∧ (∀ x ∈ xs, AtSameTime c x) ∧
    (xs.map WindowCheck.member).Nodup ∧ ∀ x ∈ xs, x.member ∉ (inSet key spec s c).map (·.2)

theorem sliding_countsDown (h : spec.Valid) (c : LimiterCheck) :
    CountsDown (RateLimitAlgorithm.slidingWindow.step fl key spec) Answered
        (SlidingLeft key spec c) := by
  constructor
  rintro n s x xs ⟨hn, hsame, hd, hfresh⟩
  have hx := hsame x List.mem_cons_self
  rw [← inSet_congr hx] at hn hfresh
  obtain ⟨hxd, hd⟩ := List.nodup_cons.1 hd
  have hnext := @inSet_next fl _ _ _ _ h (hfresh x List.mem_cons_self)
  have hsame' : ∀ y ∈ xs, AtSameTime c y := fun y hy => hsame y (List.mem_cons_of_mem _ hy)
  have hfresh' : ∀ y ∈ xs, y.member ∉ (inSet key spec s x).map (·.2) :=
    fun y hy => hfresh y (List.mem_cons_of_mem _ hy)
  by_cases hlt : ((inSet key spec s x).length : Int) < spec.requests
  · rw [if_pos hlt] at hnext
    refine ⟨⟨_, (sliding_step_of_lt hlt).1, ?_⟩, ?_, hsame', hd, fun y hy => ?_⟩
    · rw [slidingResult, if_pos hlt, decide_eq_true (by omega)]
    · rw [← inSet_congr hx, hnext, List.length_append, List.length_singleton]
      push_cast
      omega
    · rw [← inSet_congr hx, hnext, List.map_append, List.mem_append, not_or]
      refine ⟨hfresh' y hy, fun hm => hxd ?_⟩
      have he : y.member = x.member := List.mem_singleton.1 hm
      exact he ▸ List.mem_map_of_mem hy
  · rw [if_neg hlt] at hnext
    refine ⟨⟨_, (sliding_step_of_not_lt hlt).1, ?_⟩, ?_, hsame', hd, fun y hy => ?_⟩
    · rw [slidingResult, if_neg hlt, decide_eq_false (by omega)]
    · rw [← inSet_congr hx, hnext]
      omega
    · rw [← inSet_congr hx, hnext]
      exact hfresh' y hy

/-- A check with a member of its own leaves what it reports. -/
theorem sliding_left (h : spec.Valid)
    (hr : (RateLimitAlgorithm.slidingWindow.step fl key spec s c).1 = .ok r)
    {xs : List LimiterCheck} (hsame : ∀ x ∈ xs, AtSameTime c x)
    (hd : ((c :: xs).map WindowCheck.member).Nodup)
    (hfresh : ∀ x ∈ c :: xs, x.member ∉ (inSet key spec s c).map (·.2)) :
    SlidingLeft key spec c r.remaining.toNat
        (RateLimitAlgorithm.slidingWindow.step fl key spec s c).2 xs ∧ 0 ≤ r.remaining := by
  -- the check is one more at its own time
  have hleft : SlidingLeft key spec c (spec.requests - (inSet key spec s c).length).toNat s (c :: xs) :=
    ⟨rfl, fun x hx => (List.mem_cons.1 hx).elim (fun he => he ▸ ⟨rfl, rfl⟩) (hsame x), hd, hfresh⟩
  obtain ⟨-, hnext⟩ := (@sliding_countsDown fl _ _ h c).next hleft
  have hremaining : r.remaining = max 0 (spec.requests - (inSet key spec s c).length - 1) := by
    by_cases hlt : ((inSet key spec s c).length : Int) < spec.requests
    · obtain rfl := Except.ok.inj (hr.symm.trans (sliding_step_of_lt hlt).1)
      rw [slidingResult, if_pos hlt, max_eq_right (by omega)]
    · obtain rfl := Except.ok.inj (hr.symm.trans (sliding_step_of_not_lt hlt).1)
      rw [slidingResult, if_neg hlt, max_eq_left (by omega)]
  have hn : (spec.requests - ((inSet key spec s c).length : Int)).toNat -
    1 = r.remaining.toNat := by omega
  exact ⟨hn ▸ hnext, by omega⟩

/-- The members of the sorted set. -/
def HasMember (key : RedisKey) (s : LimiterStore) (m : Member) : Prop :=
  ∃ e, s.zsets (windowKey key) = some e ∧ m ∈ e.value.map (·.2)

theorem HasMember.of_inSet {m : Member} (hm : m ∈ (inSet key spec s c).map (·.2)) :
    HasMember key s m := by
  rw [inSet_view, view] at hm
  cases hlive : s.zsets.live c.time (windowKey key) with
  | none => rw [hlive] at hm; cases hm
  | some e =>
    rw [hlive] at hm
    obtain ⟨x, hx, rfl⟩ := List.mem_map.1 hm
    exact ⟨e, Store.eq_of_live hlive, List.mem_map_of_mem (List.mem_filter.1 hx).1⟩

theorem HasMember.of_next {m : Member}
    (hm : HasMember key (RateLimitAlgorithm.slidingWindow.step fl key spec s c).2 m) :
    HasMember key s m ∨ m = c.member := by
  obtain ⟨e, he, hm⟩ := hm
  by_cases hlt : ((inSet key spec s c).length : Int) < spec.requests
  · rw [(sliding_step_of_lt hlt).2] at he
    rw [pexpire_set_value he, zadd, List.map_append, List.mem_append] at hm
    rcases hm with hm | hm
    · obtain ⟨x, hx, rfl⟩ := List.mem_map.1 hm
      exact .inl (.of_inSet (List.mem_map_of_mem (List.mem_filter.1 hx).1))
    · exact .inr (List.mem_singleton.1 hm)
  · rw [(sliding_step_of_not_lt hlt).2] at he
    rw [putZset_value he] at hm
    exact .inl (.of_inSet hm)

theorem HasMember.of_after {m : Member} {cs : List LimiterCheck}
    (hm : HasMember key (after (RateLimitAlgorithm.slidingWindow.step fl key spec) s cs) m) :
    HasMember key s m ∨ m ∈ cs.map WindowCheck.member := by
  induction cs generalizing s with
  | nil => exact .inl hm
  | cons c cs ih =>
    rcases ih hm with hm | hm
    · exact hm.of_next.imp id fun he => by rw [he]; simp
    · exact .inr (List.mem_cons_of_mem _ hm)

/-! ### The token bucket -/

/-- A bucket with `n` whole tokens at the time of `c`. -/
def TokenLeft (fl : ℚ → ℚ) (key : RedisKey) (spec : RateLimitSpec) (c : LimiterCheck) (n : Nat)
    (s : LimiterStore) (xs : List LimiterCheck) : Prop :=
  ∃ level : ℚ, levelFound fl key spec s ⟨c.now, c.time⟩ = level ∧ 0 ≤ level ∧ n = ⌊level⌋.toNat ∧
    ∀ x ∈ xs, AtSameTime c x

theorem levelFound_sub_one (hfl : Double.Rounding fl) (hcap : fl spec.capacity ≤ 2 ^ 53) {level : ℚ}
    (hlevel : levelFound fl key spec s ⟨c.now, c.time⟩ = level) :
    level ≤ fl spec.capacity ∧ fl level = level ∧ (1 ≤ level → fl (level - 1) = level - 1) := by
  have hle : level ≤ fl spec.capacity := hlevel ▸ min_le_left _ _
  have hdouble : fl level = level := by
    rw [← hlevel, levelFound]
    rcases min_choice (fl (spec.capacity : ℚ)) (fl _) with hmin | hmin <;> rw [hmin, hfl.idem]
  exact ⟨hle, hdouble, fun hone => hfl.sub_one hdouble hone (hle.trans hcap)⟩

/-- A check at the same time finds what a check has left. -/
theorem levelFound_next (hfl : Double.Rounding fl) (h : spec.Valid)
    (hcap : fl spec.capacity ≤ 2 ^ 53) {level : ℚ}
    (hlevel : levelFound fl key spec s ⟨c.now, c.time⟩ = level) :
    levelFound fl key spec (RateLimitAlgorithm.tokenBucket.step fl key spec s c).2 ⟨c.now, c.time⟩ =
      if 1 ≤ level then level - 1 else level := by
  obtain ⟨hle, hdouble, hone⟩ := levelFound_sub_one hfl hcap hlevel
  have hhash := (token_step hfl h hlevel).2
  have hlive : (RateLimitAlgorithm.tokenBucket.step fl key spec s c).2.hashes.live c.time
      (tokenKey key) = _ :=
    Store.live_some hhash fun t ht => by
      obtain rfl := Option.some.inj ht
      exact Int.le_add_of_nonneg_right (h.ttlMs_pos hfl).le
  unfold levelFound Store.get
  rw [hlive]
  simp only [Option.map_some, Option.getD_some, sub_self, hfl.zero, max_self, zero_mul, add_zero]
  by_cases hge : 1 ≤ level
  · simp only [if_pos hge]
    rw [hfl.idem, hone hge]
    exact min_eq_right ((sub_le_self level zero_le_one).trans hle)
  · simp only [if_neg hge]
    rw [hdouble, min_eq_right hle]

theorem token_countsDown (hfl : Double.Rounding fl) (h : spec.Valid) (hcap : fl spec.capacity ≤ 2 ^ 53)
    (c : LimiterCheck) :
    CountsDown (RateLimitAlgorithm.tokenBucket.step fl key spec) Answered
        (TokenLeft fl key spec c) := by
  constructor
  rintro n s x xs ⟨level, hlevel, hnonneg, hn, hsame⟩
  obtain ⟨hnow, htime⟩ := hsame x List.mem_cons_self
  rw [← hnow, ← htime] at hlevel
  have hnext := levelFound_next hfl h hcap hlevel
  rw [hnow, htime] at hnext
  have hfloor : 1 ≤ level ↔ 1 ≤ ⌊level⌋ := by rw [Int.le_floor, Int.cast_one]
  have hpos : 0 ≤ ⌊level⌋ := Int.floor_nonneg.2 hnonneg
  refine ⟨⟨_, (token_step hfl h hlevel).1, ?_⟩, _, hnext, ?_, ?_,
    fun y hy => hsame y (List.mem_cons_of_mem _ hy)⟩
  · by_cases hle : 1 ≤ level
    · have := hfloor.1 hle
      rw [tokenResult, if_pos hle, decide_eq_true (by omega)]
    · have := mt hfloor.2 hle
      rw [tokenResult, if_neg hle, decide_eq_false (by omega)]
  · split <;> linarith
  · by_cases hle : 1 ≤ level
    · rw [if_pos hle, Int.floor_sub_one]
      omega
    · have := mt hfloor.2 hle
      rw [if_neg hle]
      omega

/-- A check leaves the whole tokens that it reports. -/
theorem token_left (hfl : Double.Rounding fl) (h : spec.Valid) (hcap : fl spec.capacity ≤ 2 ^ 53)
    (hs : ∀ e, s.hashes (tokenKey key) = some e → 0 ≤ e.value.tokens)
    (hr : (RateLimitAlgorithm.tokenBucket.step fl key spec s c).1 = .ok r) {xs : List LimiterCheck}
    (hsame : ∀ x ∈ xs, AtSameTime c x) :
    TokenLeft fl key spec c r.remaining.toNat
      (RateLimitAlgorithm.tokenBucket.step fl key spec s c).2 xs ∧
      0 ≤ r.remaining := by
  have hnonneg := levelFound_nonneg hfl h hs ⟨c.now, c.time⟩
  obtain ⟨-, -, hone⟩ := @levelFound_sub_one _ key spec s c hfl hcap _ rfl
  obtain rfl := Except.ok.inj (hr.symm.trans (token_step hfl h rfl).1)
  have hnext := @levelFound_next _ key _ s c hfl h hcap _ rfl
  generalize levelFound fl key spec s ⟨c.now, c.time⟩ = level at hnonneg hone hnext ⊢
  have hfloor : (tokenResult fl spec level).remaining = ⌊if 1 ≤ level then level - 1 else level⌋ := by
    unfold tokenResult
    split
    · rw [hone ‹_›]
    · rfl
  have hpos : 0 ≤ if 1 ≤ level then level - 1 else level := by
    split <;> linarith
  rw [hfloor]
  exact ⟨⟨_, hnext, hpos, rfl, hsame⟩, Int.floor_nonneg.2 hpos⟩

/-! ### Every reachable state -/

theorem fixedResult_rejected {time : Millis} {counter : Counter Millis}
    (hr : (fixedResult spec time counter).allowed = false) :
    (fixedResult spec time counter).remaining = 0 := by
  unfold fixedResult at hr ⊢
  split
  · rw [if_pos ‹_›] at hr
    cases hr
  · rfl

theorem slidingResult_rejected {entries : List (Int × Member)}
    (hr : (slidingResult spec c entries).allowed = false) :
    (slidingResult spec c entries).remaining = 0 := by
  unfold slidingResult at hr ⊢
  split
  · rw [if_pos ‹_›] at hr
    cases hr
  · rfl

theorem tokenResult_rejected {level : ℚ} (hlevel : 0 ≤ level)
    (hr : (tokenResult fl spec level).allowed = false) :
    (tokenResult fl spec level).remaining = 0 := by
  unfold tokenResult at hr ⊢
  split
  · rw [if_pos ‹_›] at hr
    cases hr
  · exact Int.floor_eq_zero_iff.2 ⟨hlevel, not_le.1 ‹_›⟩

theorem sliding_step_fst : (RateLimitAlgorithm.slidingWindow.step fl key spec s c).1 =
    .ok (slidingResult spec c (inSet key spec s c)) := by
  by_cases hlt : ((inSet key spec s c).length : Int) < spec.requests
  · exact (sliding_step_of_lt hlt).1
  · exact (sliding_step_of_not_lt hlt).1

theorem answered_of_left {step : LimiterStore → LimiterCheck → Except Failure RateLimitResult ×
    LimiterStore}
    {Left : Nat → LimiterStore → List LimiterCheck → Prop} (h : CountsDown step Answered Left)
    {xs : List LimiterCheck}
    (hleft : Left r.remaining.toNat s xs)
    (hr : 0 ≤ r.remaining) {before rest : List (LimiterCheck × Except Failure RateLimitResult)}
    {x : LimiterCheck × Except Failure RateLimitResult} (hx : answers step s xs = before ++ x :: rest) :
    Answered x.2 (decide ((before.length : Int) < r.remaining)) := by
  have hdecide : decide (before.length < r.remaining.toNat) =
      decide ((before.length : Int) < r.remaining) :=
    decide_eq_decide.2 (by omega)
  rw [← hdecide]
  exact h.answers hleft hx

variable (key s) in
/-- After any run of checks and a check that reports that `r.remaining` requests remain, exactly so
many further checks at the same time are allowed. In the sliding window two checks at one time are
told apart by their `time.perf_counter_ns()`; the bucket of a stored rule holds few enough tokens
for doubles to count them one by one. -/
theorem remaining_exact (a : RateLimitAlgorithm) (h : spec.Stored) (hs : Unused key s)
    (cs : List LimiterCheck) (c : LimiterCheck) (r : RateLimitResult)
    (hr : (a.inDoubles key spec (after (a.inDoubles key spec) s cs) c).1 = .ok r)
    (xs : List LimiterCheck) (hsame : ∀ x ∈ xs, AtSameTime c x)
    (hd : a = .slidingWindow → ((cs ++ c :: xs).map WindowCheck.member).Nodup) :
    0 ≤ r.remaining ∧ (r.allowed = false → r.remaining = 0) ∧ ∀ before x rest,
      answers (a.inDoubles key spec) (a.inDoubles key spec (after (a.inDoubles key spec) s cs) c).2 xs =
        before ++ x :: rest → Answered x.2 (decide ((before.length : Int) < r.remaining)) := by
  cases a with
  | fixedWindow =>
    obtain ⟨counter, hcounts⟩ : ∃ counter, Counts key counter
        (after (RateLimitAlgorithm.fixedWindow.inDoubles key spec) s cs) :=
      run_invariant (I := fun s => ∃ counter, Counts key counter s)
        (fun _ _ ⟨_, hc⟩ => ⟨_, (fixed_step h.toValid hc).2⟩)
        ⟨none, hs.counters, by simp⟩ cs
    obtain ⟨hleft, hnonneg⟩ := fixed_left h.toValid hcounts hr hsame
    refine ⟨hnonneg, ?_,
      fun _ _ _ hx => answered_of_left (fixed_countsDown h.toValid c) hleft hnonneg hx⟩
    obtain rfl := Except.ok.inj (hr.symm.trans (fixed_step h.toValid hcounts).1)
    exact fixedResult_rejected
  | slidingWindow =>
    have hd := hd rfl
    rw [List.map_append, List.nodup_append] at hd
    have hfresh : ∀ x ∈ c :: xs,
        x.member ∉ (inSet key spec
            (after (RateLimitAlgorithm.slidingWindow.inDoubles key spec) s cs) c).map (·.2) := by
      intro x hx hm
      rcases (HasMember.of_inSet hm).of_after with ⟨e, hentry, -⟩ | hm
      · rw [hs.zsets] at hentry
        cases hentry
      · exact hd.2.2 x.member hm x.member (List.mem_map_of_mem hx) rfl
    obtain ⟨hleft, hnonneg⟩ := sliding_left h.toValid hr hsame hd.2.1 hfresh
    refine ⟨hnonneg, ?_,
      fun _ _ _ hx => answered_of_left (sliding_countsDown h.toValid c) hleft hnonneg hx⟩
    obtain rfl := Except.ok.inj (hr.symm.trans sliding_step_fst)
    exact slidingResult_rejected
  | tokenBucket =>
    have hfl := Double.rounding_round
    have hcap : Double.round spec.capacity ≤ 2 ^ 53 := by
      refine (hfl.mono
        (show (spec.capacity : ℚ) ≤ (2 ^ 31 : ℤ) by exact_mod_cast h.capacity_lt.le)).trans ?_
      rw [hfl.int _ (by norm_num)]
      norm_num
    have hpos : ∀ e, (after (RateLimitAlgorithm.tokenBucket.inDoubles key spec) s cs).hashes
        (tokenKey key) =
        some e → 0 ≤ e.value.tokens :=
      run_invariant
        (I := fun s : LimiterStore => ∀ e, s.hashes (tokenKey key) = some e → 0 ≤ e.value.tokens)
        (fun _ c hs => tokens_nonneg hfl h.toValid hs c)
          (fun e he => by rw [hs.hashes] at he; cases he) cs
    obtain ⟨hleft, hnonneg⟩ := token_left hfl h.toValid hcap hpos hr hsame
    refine ⟨hnonneg, ?_,
      fun _ _ _ hx => answered_of_left (token_countsDown hfl h.toValid hcap c) hleft hnonneg hx⟩
    obtain rfl := Except.ok.inj (hr.symm.trans (token_step hfl h.toValid rfl).1)
    exact tokenResult_rejected (levelFound_nonneg hfl h.toValid hpos _)

end

theorem windowSpec_stored : windowSpec.Stored :=
  ⟨⟨by decide, by decide, by simp [windowSpec]⟩, by decide, by decide, by simp [windowSpec]⟩

/-- Two requests a second: one remains after the first check, so the last of two more is rejected. -/
theorem remaining_exact_three : Answered (.ok ⟨false, 2, 0, 1⟩) (decide ((1 : Int) < 1)) :=
  (remaining_exact [] LimiterStore.empty .slidingWindow windowSpec_stored ⟨rfl, rfl, rfl⟩ []
    ⟨0, 1, 0⟩ ⟨true, 2, 1, 0⟩
    (by decide +kernel) [⟨0, 2, 0⟩, ⟨0, 3, 0⟩] (by decide) fun _ => by decide +kernel).2.2
    [(⟨0, 2, 0⟩, .ok ⟨true, 2, 0, 0⟩)] (⟨0, 3, 0⟩, .ok ⟨false, 2, 0, 1⟩) [] (by decide +kernel)

/-- Three checks of the sliding window with one member: the second finds the entry of the first and
counts it once, so that the third is allowed as well. -/
theorem remaining_not_exact : ¬ ∀ (key : RedisKey) (s : LimiterStore) (a : RateLimitAlgorithm)
    (spec : RateLimitSpec),
    spec.Stored → Unused key s → ∀ (cs : List LimiterCheck) (c : LimiterCheck) (r : RateLimitResult),
      (a.inDoubles key spec (after (a.inDoubles key spec) s cs) c).1 = .ok r → ∀ xs : List LimiterCheck,
        (∀ x ∈ xs, AtSameTime c x) → ∀ before x rest,
          answers (a.inDoubles key spec)
            (a.inDoubles key spec (after (a.inDoubles key spec) s cs) c).2 xs =
            before ++ x :: rest → Answered x.2 (decide ((before.length : Int) < r.remaining)) := by
  intro h
  have hanswered := h [] LimiterStore.empty .slidingWindow windowSpec windowSpec_stored
    ⟨rfl, rfl, rfl⟩ [] ⟨0, 1, 0⟩
    ⟨true, 2, 1, 0⟩ (by decide +kernel) [⟨0, 1, 0⟩, ⟨0, 1, 0⟩] (by decide)
      [(⟨0, 1, 0⟩, .ok ⟨true, 2, 0, 0⟩)]
    (⟨0, 1, 0⟩, .ok ⟨true, 2, 0, 0⟩) [] (by decide +kernel)
  obtain ⟨r, hr, hallowed⟩ := hanswered
  cases hr
  cases hallowed

end TrafficPlatform
