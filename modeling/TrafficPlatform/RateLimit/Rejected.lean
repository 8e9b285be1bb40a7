import TrafficPlatform.RateLimit.Checks
import Mathlib.Data.Option.Basic

/-!
# Rejected checks are free

A rejected check writes in every strategy: it counts in the counter of the fixed window, it takes
old entries out of the sorted set, it refills the bucket and renews its time to live. None of it
shows: a counter beyond `requests` is as good as any other with the same expiry, a later check takes
the old entries out anyway, and a bucket may be refilled in one step or in two.
-/

namespace TrafficPlatform
open Kit

section
variable {fl : ℚ → ℚ} {key : RedisKey} {spec : RateLimitSpec} {s s' : LimiterStore} {c : LimiterCheck}

/-! ### The fixed window -/

/-- The counters expire together, and have counted the same or both all that is allowed. -/
def Alike (spec : RateLimitSpec) (c c' : Counter Millis) : Prop :=
  c.expiry = c'.expiry ∧ (c.used = c'.used ∨ spec.requests ≤ c.used ∧ spec.requests ≤ c'.used)

def SameCounter (key : RedisKey) (spec : RateLimitSpec) (s s' : LimiterStore) : Prop :=
  ∃ counter counter', Counts key counter s ∧ Counts key counter' s' ∧
    Option.Rel (Alike spec) counter counter'

theorem hit_alike {time : Millis} {counter counter' : Option (Counter Millis)}
    (h : Option.Rel (Alike spec) counter counter') :
    (Counter.hit spec.life time counter).expiry = (Counter.hit spec.life time counter').expiry ∧
      ((Counter.hit spec.life time counter).used = (Counter.hit spec.life time counter').used ∨
        spec.requests < (Counter.hit spec.life time counter).used ∧
          spec.requests < (Counter.hit spec.life time counter').used) := by
  cases h with
  | none => exact ⟨rfl, .inl rfl⟩
  | @some c c' h =>
    obtain ⟨hexp, hused⟩ := h
    by_cases hle : time ≤ c.expiry
    · rw [Counter.hit, Counter.hit, if_pos hle, if_pos (hexp ▸ hle)]
      refine ⟨hexp, hused.imp (congrArg (· + 1)) fun hover => ⟨?_, ?_⟩⟩ <;> push_cast <;> omega
    · rw [Counter.hit, Counter.hit, if_neg hle, if_neg (hexp ▸ hle)]
      exact ⟨rfl, .inl rfl⟩

theorem fixedResult_congr {time : Millis} {c c' : Counter Millis} (hexp : c.expiry = c'.expiry)
    (hused : c.used = c'.used ∨ spec.requests < c.used ∧ spec.requests < c'.used) :
    fixedResult spec time c = fixedResult spec time c' := by
  rcases hused with hused | ⟨hc, hc'⟩
  · rw [fixedResult, fixedResult, hexp, hused]
  · rw [fixedResult, fixedResult, hexp, if_neg (not_le_of_gt hc), if_neg (not_le_of_gt hc')]

theorem fixed_forgets (h : spec.Valid) :
    Forgets (RateLimitAlgorithm.fixedWindow.step fl key spec) WindowCheck.now OneClock Rejected
    (fun _ => SameCounter key spec) where
  keep := by
    rintro _ s s' c ⟨counter, counter', hc, hc', hrel⟩ - -
    obtain ⟨hresult, hnext⟩ := fixed_step (c := c) h hc
    obtain ⟨hresult', hnext'⟩ := fixed_step (c := c) h hc'
    obtain ⟨hexp, hused⟩ := @hit_alike _ c.time _ _ hrel
    refine ⟨by rw [hresult, hresult', fixedResult_congr hexp hused], _, _, hnext, hnext', .some ⟨hexp, ?_⟩⟩
    exact hused.imp id fun ⟨hc, hc'⟩ => ⟨hc.le, hc'.le⟩
  drop := by
    rintro _ s s' c ⟨counter, counter', hc, hc', hrel⟩ - - ⟨r, hr, hblocked⟩
    obtain ⟨hresult, hnext⟩ := fixed_step (c := c) h hc
    obtain rfl := Except.ok.inj (hr.symm.trans hresult)
    obtain ⟨found, rfl, -, hhit, hused⟩ := fixed_blocked h hblocked
    cases hrel with
    | @some _ found' hrel =>
      obtain ⟨hexp, hcount⟩ := hrel
      refine ⟨_, _, hnext, hc', .some ?_⟩
      rw [hhit]
      refine ⟨hexp, .inr ⟨?_, ?_⟩⟩
      · push_cast
        omega
      · rcases hcount with hcount | hcount
        · rw [← hcount]
          omega
        · exact hcount.2

/-! ### The sliding window -/

/-- From time `t` on, checks find the same. -/
def SameView (key : RedisKey) (spec : RateLimitSpec) (t : ℚ) (s s' : LimiterStore) : Prop :=
  ∀ c, OneClock c → t ≤ c.now → view key spec s c = view key spec s' c

theorem view_congr (h : s.zsets (windowKey key) = s'.zsets (windowKey key)) :
    view key spec s c = view key spec s' c := by
  rw [view, view, Store.live_congr h]

theorem sliding_forgets (h : spec.Valid) :
    Forgets (RateLimitAlgorithm.slidingWindow.step fl key spec) WindowCheck.now OneClock
    Rejected (SameView key spec) where
  keep := by
    rintro t s s' c hsame hle hclock
    have hms : 0 < spec.windowSeconds * 1000 := by
      have := h.window_pos
      omega
    have hview := hsame c hclock hle
    have hset : inSet key spec s c = inSet key spec s' c := by rw [inSet_view, inSet_view, hview]
    by_cases hlt : ((inSet key spec s c).length : Int) < spec.requests
    · obtain ⟨hresult, hz⟩ := sliding_step_of_lt hlt
      obtain ⟨hresult', hz'⟩ := sliding_step_of_lt (hset ▸ hlt)
      refine ⟨by rw [hresult, hresult', hset], fun c' _ _ => view_congr ?_⟩
      rw [hz, hz', pexpire_set _ hms, pexpire_set _ hms, hset]
    · obtain ⟨hresult, -⟩ := sliding_step_of_not_lt hlt
      obtain ⟨hresult', -⟩ := sliding_step_of_not_lt (hset ▸ hlt)
      have hr : (slidingResult spec c (inSet key spec s c)).allowed = false := by
        rw [slidingResult, if_neg hlt]
      obtain ⟨e, he, hnext⟩ := sliding_rejected h ⟨_, hresult, hr⟩
      obtain ⟨e', he', hnext'⟩ := sliding_rejected h ⟨_, hresult', hset ▸ hr⟩
      refine ⟨by rw [hresult, hresult', hset], fun c' _ _ => view_congr ?_⟩
      rw [view, view, he, he'] at hview
      obtain ⟨hvalue, hexp⟩ := Prod.mk.inj (Option.some.inj hview)
      rw [hnext, hnext', hvalue, hexp]
  drop := by
    rintro t s s' c hsame hle hclock hr
    obtain ⟨e, he, hnext⟩ := sliding_rejected h hr
    refine fun c' hclock' hle' => Eq.trans ?_ (hsame c' hclock' (hle.trans hle'))
    have hmono : c.nowMs - spec.windowSeconds * 1000 ≤ c'.nowMs - spec.windowSeconds * 1000 := by
      have := hclock.time_mono hclock' hle'
      rw [← hclock.nowMs, ← hclock'.nowMs] at this
      exact Int.sub_le_sub_right this _
    -- the set expires when it did
    rw [view_of_entry hnext, view_of_entry (Store.eq_of_live he)]
    dsimp only
    rw [zremrangebyscore_twice hmono]

/-! ### The token bucket -/

/-- From time `t` on, the buckets have the same level. -/
def SameLevel (h : spec.Valid) (key : RedisKey) (t : ℚ) (s s' : LimiterStore) : Prop :=
  ∃ b b' : TokenBucket h.bucket, Levels h key b s ∧ Levels h key b' s' ∧ b.time ≤ t ∧ b'.time ≤ t ∧
    ∀ u, t ≤ u → b.levelAt u = b'.levelAt u

theorem token_forgets (h : spec.Valid) :
    Forgets (RateLimitAlgorithm.tokenBucket.step id key spec) WindowCheck.now OneClock Rejected
    (SameLevel h key) where
  keep := by
    rintro t s s' c ⟨b, b', hb, hb', ht, ht', hsame⟩ hle hclock
    obtain ⟨hresult, hnext⟩ := hb.next hclock (ht.trans hle)
    obtain ⟨hresult', hnext'⟩ := hb'.next hclock (ht'.trans hle)
    have hlevel := hsame c.now hle
    refine ⟨by rw [hresult, hresult', hlevel], _, _, hnext, hnext', (b.check_time _).le,
      (b'.check_time _).le, fun u _ => ?_⟩
    refine TokenBucket.levelAt_congr ?_ ?_
    · rw [b.check_level, b'.check_level, hlevel]
    · rw [b.check_time, b'.check_time]
  drop := by
    rintro t s s' c ⟨b, b', hb, hb', ht, ht', hsame⟩ hle hclock ⟨r, hr, hblocked⟩
    obtain ⟨hresult, hnext⟩ := hb.next hclock (ht.trans hle)
    obtain rfl := Except.ok.inj (hr.symm.trans hresult)
    have hrejected : (b.check c.now).1 = false := by
      rw [b.check_fst, decide_eq_false_iff_not]
      intro hle
      rw [tokenResult, if_pos hle] at hblocked
      cases hblocked
    refine ⟨_, b', hnext, hb', (b.check_time _).le, ht'.trans hle, fun u hu => ?_⟩
    rw [TokenBucket.levelAt_rejected hrejected (ht.trans hle) hu]
    exact hsame u (hle.trans hu)

/-! ### Every run -/

variable (key s) in
/-- In exact arithmetic, in a run on one clock that does not go back, any of the rejected checks can
be left out: the others get the same results. -/
theorem rejected_checks_free (a : RateLimitAlgorithm) (h : spec.Valid) (hs : Unused key s)
    (cs : List LimiterCheck) (hclock : ∀ c ∈ cs, OneClock c)
    (hsorted : cs.Pairwise fun c c' => c.now ≤ c'.now)
    (log : List (LimiterCheck × Except Failure RateLimitResult))
    (hd : Drops Rejected (answers (a.step id key spec) s cs) log) :
    answers (a.step id key spec) s (log.map (·.1)) = log := by
  have hstart : ∀ c ∈ cs, (0 : ℚ) ≤ c.now := fun c hc => (hclock c hc).now_nonneg
  cases a with
  | fixedWindow =>
    have hcounts : Counts key none s := ⟨hs.counters, by simp⟩
    exact (fixed_forgets h).answers ⟨none, none, hcounts, hcounts, .none⟩ hsorted hstart hclock hd
  | slidingWindow => exact (sliding_forgets h).answers (fun _ _ _ => rfl) hsorted hstart hclock hd
  | tokenBucket =>
    have hlevels := Levels.unused h hs
    exact (token_forgets h).answers ⟨_, _, hlevels, hlevels, le_refl _, le_refl _, fun _ _ => rfl⟩
      hsorted hstart hclock hd

end

/-- One check a second: the check at half a second is rejected, and the one at two seconds does not
depend on it. -/
theorem rejected_checks_free_half :
    answers (RateLimitAlgorithm.tokenBucket.step id [] sampleSpec) LimiterStore.empty
      [⟨0, 1, 0⟩, ⟨2, 3, 2000⟩] =
      [(⟨0, 1, 0⟩, .ok ⟨true, 1, 0, 0⟩), (⟨2, 3, 2000⟩, .ok ⟨true, 1, 0, 0⟩)] := by
  have hrun : answers (RateLimitAlgorithm.tokenBucket.step id [] sampleSpec) LimiterStore.empty
      [⟨0, 1, 0⟩, ⟨1 / 2, 2, 500⟩, ⟨2, 3, 2000⟩] =
      [(⟨0, 1, 0⟩, .ok ⟨true, 1, 0, 0⟩), (⟨1 / 2, 2, 500⟩, .ok ⟨false, 1, 0, 1⟩),
          (⟨2, 3, 2000⟩, .ok ⟨true, 1, 0, 0⟩)] := by
    decide +kernel
  refine rejected_checks_free [] LimiterStore.empty .tokenBucket sampleSpec_valid ⟨rfl, rfl, rfl⟩
    [⟨0, 1, 0⟩, ⟨1 / 2, 2, 500⟩, ⟨2, 3, 2000⟩] (by decide +kernel) (by decide +kernel)
    [(⟨0, 1, 0⟩, .ok ⟨true, 1, 0, 0⟩), (⟨2, 3, 2000⟩, .ok ⟨true, 1, 0, 0⟩)] ?_
  rw [hrun]
  exact .keep _ (.drop _ ⟨_, rfl, rfl⟩ (.keep _ .nil))

end TrafficPlatform
