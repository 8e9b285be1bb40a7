import TrafficPlatform.Kit.Run
import TrafficPlatform.RateLimit
import Mathlib.Data.List.Nodup
import Mathlib.Data.List.Perm.Subperm
import Mathlib.Tactic.Linarith

/-!
# The sliding window limiter

A run of checks on one key, in the order in which Redis executes them. The sorted set counts for a
window what it still holds of it: as long as every check finds there the allowed checks that are less
than a window away from it (`Remembers`), no window has more than `requests` of them. Times that do not
go back ensure that (`remembers_of_sorted`); a check with a late time removes entries that a following
check with an earlier time would have to count (`sliding_window_exceeded`).
-/

namespace TrafficPlatform
open Kit

/-- A check: the readings of `time.time()` and `time.perf_counter_ns()` in the application, and Redis's
clock when it runs. -/
structure WindowCheck where
  now : ℚ
  perfCounterNs : Nat
  time : Millis
deriving DecidableEq

namespace WindowCheck

/-- `int(time.time() * 1000)`. -/
def nowMs (c : WindowCheck) : Int := pyInt (c.now * 1000)

def member (c : WindowCheck) : Member := (c.nowMs, c.perfCounterNs)

end WindowCheck

/-- Redis after some checks, and their results. -/
structure WindowState where
  redis : LimiterStore
  log : List (WindowCheck × RateLimitResult)

def windowKey (key : RedisKey) : RedisKey := .text "rl" :: .text "sw" :: key

namespace WindowState

def check (key : RedisKey) (spec : RateLimitSpec) (s : WindowState) (c : WindowCheck) : WindowState :=
  let (result, redis) := SlidingWindowLimiter.check key spec c.now c.perfCounterNs c.time s.redis
  ⟨redis, s.log ++ [(c, result)]⟩

/-- The allowed checks of the log. -/
def allowed (s : WindowState) : List WindowCheck := (s.log.filter (·.2.allowed)).map (·.1)

/-- The allowed checks with a time in `(t - window_ms, t]`. -/
def inWindow (spec : RateLimitSpec) (s : WindowState) (t : Int) : List WindowCheck :=
  s.allowed.filter fun a => decide (t - spec.windowSeconds * 1000 < a.nowMs ∧ a.nowMs ≤ t)

/-- What the sorted set holds at a time of Redis's clock. -/
def entries (key : RedisKey) (s : WindowState) (time : Millis) : List (Int × Member) :=
  (s.redis.zsets.get time (windowKey key)).getD []

end WindowState

/-- No window has more than `requests` allowed checks. -/
def Limited (spec : RateLimitSpec) (s : WindowState) : Prop :=
  ∀ t, ((s.inWindow spec t).length : Int) ≤ spec.requests

/-- Every allowed check that is less than a window away from the check is still in the sorted set:
no check with a later time has removed it, and the key has not expired. -/
def Remembers (key : RedisKey) (spec : RateLimitSpec) (s : WindowState) (c : WindowCheck) : Prop :=
  ∀ a ∈ s.allowed, c.nowMs - spec.windowSeconds * 1000 < a.nowMs → a.nowMs < c.nowMs +
    spec.windowSeconds * 1000 →
    (a.nowMs, a.member) ∈ s.entries key c.time

instance (key : RedisKey) (spec : RateLimitSpec) (s : WindowState) (c : WindowCheck) :
    Decidable (Remembers key spec s c) :=
  inferInstanceAs (Decidable (∀ a ∈ s.allowed, _))

section
variable {key : RedisKey} {spec : RateLimitSpec} {s : WindowState} {c : WindowCheck}
    {cs : List WindowCheck}

/-! ### One check -/

/-- What the script counts. -/
def counted (key : RedisKey) (spec : RateLimitSpec) (s : WindowState) (c : WindowCheck) :
    List (Int × Member) :=
  zremrangebyscore (c.nowMs - spec.windowSeconds * 1000) (s.entries key c.time)

theorem check_of_lt (h : ((counted key spec s c).length : Int) < spec.requests) :
    ∃ result : RateLimitResult, result.allowed = true ∧ (s.check key spec c).log = s.log ++
      [(c, result)] ∧
      (s.check key spec c).redis.zsets = pexpire c.time (windowKey key) (spec.windowSeconds * 1000)
        ((putZset c.time (windowKey key) (counted key spec s c) s.redis.zsets).set c.time
          (windowKey key)
          (zadd c.nowMs c.member (counted key spec s c))) := by
  unfold counted WindowState.entries windowKey WindowCheck.nowMs at h
  unfold WindowState.check SlidingWindowLimiter.check slidingWindowLua
  dsimp only
  rw [if_pos h]
  exact ⟨_, rfl, rfl, rfl⟩

theorem check_of_not_lt (h : ¬ ((counted key spec s c).length : Int) < spec.requests) :
    ∃ result : RateLimitResult, result.allowed = false ∧ (s.check key spec c).log = s.log ++
      [(c, result)] ∧
      (s.check key spec c).redis.zsets = putZset c.time (windowKey key)
          (counted key spec s c) s.redis.zsets := by
  unfold counted WindowState.entries windowKey WindowCheck.nowMs at h
  unfold WindowState.check SlidingWindowLimiter.check slidingWindowLua
  dsimp only
  rw [if_neg h]
  exact ⟨_, rfl, rfl, rfl⟩

theorem check_log (key : RedisKey) (spec : RateLimitSpec) (s : WindowState) (c : WindowCheck) :
    ∃ result, (s.check key spec c).log = s.log ++ [(c, result)] := by
  by_cases h : ((counted key spec s c).length : Int) < spec.requests
  · obtain ⟨result, -, hlog, -⟩ := check_of_lt h
    exact ⟨result, hlog⟩
  · obtain ⟨result, -, hlog, -⟩ := check_of_not_lt h
    exact ⟨result, hlog⟩

theorem check_allowed (key : RedisKey) (spec : RateLimitSpec) (s : WindowState) (c : WindowCheck) :
    (s.check key spec c).allowed =
      s.allowed ++ if ((counted key spec s c).length : Int) < spec.requests then [c] else [] := by
  by_cases h : ((counted key spec s c).length : Int) < spec.requests
  · obtain ⟨result, hr, hlog, -⟩ := check_of_lt h
    rw [if_pos h]
    simp [WindowState.allowed, hlog, List.filter_append, hr]
  · obtain ⟨result, hr, hlog, -⟩ := check_of_not_lt h
    rw [if_neg h]
    simp [WindowState.allowed, hlog, List.filter_append, hr]

theorem mem_allowed {a : WindowCheck} (h : a ∈ s.allowed) : a ∈ s.log.map (·.1) := by
  obtain ⟨x, hx, rfl⟩ := List.mem_map.1 h
  exact List.mem_map_of_mem (List.mem_filter.1 hx).1

theorem mem_counted {a : WindowCheck} (h : (a.nowMs, a.member) ∈ s.entries key c.time)
    (hlt : c.nowMs - spec.windowSeconds * 1000 < a.nowMs) :
        (a.nowMs, a.member) ∈ counted key spec s c := by
  refine List.mem_filter.2 ⟨h, ?_⟩
  have : ¬ a.nowMs ≤ c.nowMs - spec.windowSeconds * 1000 := not_le_of_gt hlt
  simp [this]

/-- A check that finds what it has to count keeps every window within the limit. -/
theorem Remembers.limited (h : Remembers key spec s c) (hd : (s.allowed.map (·.member)).Nodup)
    (hl : Limited spec s) :
    Limited spec (s.check key spec c) := by
  intro t
  rw [WindowState.inWindow, check_allowed, List.filter_append, List.length_append]
  have hold := hl t
  by_cases hc : ((counted key spec s c).length : Int) < spec.requests
  · by_cases ht : t - spec.windowSeconds * 1000 < c.nowMs ∧ c.nowMs ≤ t
    · -- everything in the window of `t` shares a window with the check
      have hsub : ((s.inWindow spec t).map fun a => (a.nowMs, a.member)).Subperm
          (counted key spec s c) := by
        refine List.Nodup.subperm ?_ fun e he => ?_
        · have hnodup : ((s.inWindow spec t).map (·.member)).Nodup :=
            hd.sublist (List.filter_sublist.map _)
          exact List.Nodup.of_map Prod.snd (by rwa [List.map_map])
        · obtain ⟨a, ha, rfl⟩ := List.mem_map.1 he
          obtain ⟨ha, hw⟩ := List.mem_filter.1 ha
          have hw := of_decide_eq_true hw
          exact mem_counted (h a ha (by omega) (by omega)) (by omega)
      have hle := hsub.length_le
      rw [List.length_map] at hle
      rw [if_pos hc, List.filter_cons_of_pos (by simpa using ht), List.filter_nil,
        List.length_singleton]
      unfold WindowState.inWindow at hle
      omega
    · rw [if_pos hc, List.filter_cons_of_neg (by simpa using ht)]
      simpa [WindowState.inWindow] using hold
  · rw [if_neg hc]
    simpa [WindowState.inWindow] using hold

/-! ### Any order of arrival -/

/-- The checks of the log and those to come have different members. -/
def Distinct (s : WindowState) (cs : List WindowCheck) : Prop :=
  ((s.log.map (·.1) ++ cs).map (·.member)).Nodup

theorem Distinct.allowed (h : Distinct s cs) : (s.allowed.map (·.member)).Nodup := by
  refine h.sublist (List.Sublist.map _ ?_)
  exact (List.filter_sublist.map _).trans (List.sublist_append_left _ _)

theorem Distinct.next (h : Distinct s (c :: cs)) : Distinct (s.check key spec c) cs := by
  obtain ⟨result, hlog⟩ := check_log key spec s c
  simpa [Distinct, hlog] using h

variable (key spec s cs) in
/-- In a run in which every check finds in the sorted set what it has to count, no window ever has more
than `requests` allowed checks. -/
theorem sliding_window_limited (hr : 0 ≤ spec.requests) (hlog : s.log = [])
    (hd : (cs.map (·.member)).Nodup)
    (hm : Meets (WindowState.check key spec) (Remembers key spec) s cs) :
    Always (WindowState.check key spec) (Limited spec) s cs := by
  have hlimited : Limited spec s := by
    intro t
    simpa [WindowState.inWindow, WindowState.allowed, hlog] using hr
  have hdistinct : Distinct s cs := by simpa [Distinct, hlog] using hd
  clear hd hlog
  induction cs generalizing s with
  | nil => exact hlimited
  | cons c cs ih =>
    exact ⟨hlimited, ih _ hm.2 (hm.1.limited hdistinct.allowed hlimited) hdistinct.next⟩

end

/-- Two requests a second. -/
def windowSpec : RateLimitSpec := ⟨2, 1, none⟩

def sampleWindow : WindowState := ⟨LimiterStore.empty, []⟩

theorem sliding_window_limited_three :
    Always (WindowState.check [] windowSpec) (Limited windowSpec) sampleWindow
    [⟨0, 1, 0⟩, ⟨0, 2, 0⟩, ⟨1, 3, 1000⟩] :=
  sliding_window_limited [] windowSpec sampleWindow _ (by decide) rfl (by decide +kernel)
    (by decide +kernel)

/-- The check of one clock at 1 s removes the two entries that the check of another clock at 1 ms
shares a window with. -/
theorem sliding_window_exceeded : ¬ ∀ (key : RedisKey) (spec : RateLimitSpec) (s : WindowState)
    (cs : List WindowCheck),
    0 ≤ spec.requests → s.redis.zsets (windowKey key) = none → s.log = [] → (cs.map (·.member)).Nodup →
    Limited spec (run (WindowState.check key spec) s cs) := by
  intro h
  have hle := h [] windowSpec sampleWindow [⟨0, 1, 0⟩, ⟨0, 2, 0⟩, ⟨1, 3, 0⟩, ⟨1 / 1000, 4, 0⟩]
    (by decide) rfl rfl
    (by decide +kernel) 1
  exact absurd hle (by decide +kernel)

/-! ### Times in order -/

section
variable {key : RedisKey} {spec : RateLimitSpec} {s : WindowState} {c : WindowCheck}
    {cs : List WindowCheck} {last : Int}

/-- No allowed check is later than `last`; the sorted set holds those of the last window, and lives
as long as they count. -/
structure Keeps (key : RedisKey) (spec : RateLimitSpec) (last : Int) (s : WindowState) : Prop where
  le : ∀ a ∈ s.allowed, a.nowMs ≤ last
  kept : ∀ a ∈ s.allowed, last - spec.windowSeconds * 1000 < a.nowMs → ∃ entries expiry,
    s.redis.zsets (windowKey key) = some ⟨entries, some expiry⟩ ∧ (a.nowMs, a.member) ∈ entries ∧
      a.nowMs + spec.windowSeconds * 1000 ≤ expiry

theorem Keeps.live (h : Keeps key spec last s) (hle : last ≤ c.nowMs) (ht : c.time = c.nowMs)
    {a : WindowCheck} (ha : a ∈ s.allowed) (hlt : c.nowMs - spec.windowSeconds * 1000 < a.nowMs) :
    ∃ expiry, (∃ entries, s.redis.zsets.live c.time (windowKey key) = some ⟨entries, some expiry⟩) ∧
      (a.nowMs, a.member) ∈ counted key spec s c ∧ a.nowMs + spec.windowSeconds * 1000 ≤ expiry := by
  obtain ⟨entries, expiry, he, hmem, hexp⟩ := h.kept a ha (by omega)
  have hlive : s.redis.zsets.live c.time (windowKey key) = some ⟨entries, some expiry⟩ := by
    refine Store.live_some he fun t hte => ?_
    rw [ht, ← Option.some.inj hte]
    have : c.nowMs ≤ a.nowMs + spec.windowSeconds * 1000 := by omega
    exact this.trans hexp
  exact ⟨expiry, ⟨entries, hlive⟩,
    mem_counted (by simpa [WindowState.entries, Store.get, hlive] using hmem) hlt, hexp⟩

theorem Keeps.remembers (h : Keeps key spec last s) (hle : last ≤ c.nowMs) (ht : c.time = c.nowMs) :
    Remembers key spec s c := by
  intro a ha hlt _
  obtain ⟨-, -, hmem, -⟩ := h.live hle ht ha hlt
  exact (List.mem_filter.1 hmem).1

theorem Keeps.next (h : Keeps key spec last s) (hle : last ≤ c.nowMs) (ht : c.time = c.nowMs)
    (hd : Distinct s (c :: cs)) : Keeps key spec c.nowMs (s.check key spec c) := by
  have hlast : ∀ a ∈ (s.check key spec c).allowed, a.nowMs ≤ c.nowMs := by
    intro a ha
    rw [check_allowed] at ha
    rcases List.mem_append.1 ha with ha | ha
    · exact (h.le a ha).trans hle
    · split at ha
      · rw [List.mem_singleton.1 ha]
      · cases ha
  refine ⟨hlast, fun a ha hlt => ?_⟩
  -- a window that is not positive holds nothing
  have hw : 0 < spec.windowSeconds := by
    have := hlast a ha
    omega
  rw [check_allowed] at ha
  by_cases hc : ((counted key spec s c).length : Int) < spec.requests
  · obtain ⟨result, -, -, hz⟩ := check_of_lt hc
    rw [if_pos hc] at ha
    rw [hz, pexpire_set _ (by omega), ht]
    rcases List.mem_append.1 ha with ha | ha
    · have hne : a.member ≠ c.member := by
        have hnd := hd
        rw [Distinct, List.map_append, List.nodup_append] at hnd
        exact hnd.2.2 _ (List.mem_map_of_mem (mem_allowed ha)) _ (by simp)
      have hold := h.le a ha
      obtain ⟨-, -, hmem, -⟩ := h.live hle ht ha hlt
      exact ⟨_, _, rfl, List.mem_append_left _ (List.mem_filter.2 ⟨hmem, by simpa using hne⟩), by omega⟩
    · rw [List.mem_singleton.1 ha]
      exact ⟨_, _, rfl, List.mem_append_right _ (by simp), le_refl _⟩
  · obtain ⟨result, -, -, hz⟩ := check_of_not_lt hc
    rw [if_neg hc, List.append_nil] at ha
    obtain ⟨expiry, ⟨entries, hlive⟩, hmem, hexp⟩ := h.live hle ht ha hlt
    have hne : (counted key spec s c).isEmpty = false := by
      cases hcount : counted key spec s c with
      | nil => rw [hcount] at hmem; cases hmem
      | cons e es => rfl
    rw [hz, putZset, hne, if_neg (by simp), Store.set_of_live hlive]
    exact ⟨_, expiry, rfl, hmem, hexp⟩

theorem Keeps.meets (h : Keeps key spec last s) (hd : Distinct s cs)
    (hle : ∀ c ∈ cs, last ≤ c.nowMs) (hs : cs.Pairwise fun c c' => c.nowMs ≤ c'.nowMs)
    (ht : ∀ c ∈ cs, c.time = c.nowMs) :
    Meets (WindowState.check key spec) (Remembers key spec) s cs := by
  induction cs generalizing s last with
  | nil => trivial
  | cons c cs ih =>
    obtain ⟨hrest, hs⟩ := List.pairwise_cons.1 hs
    have hlast := hle c List.mem_cons_self
    have hc := ht c List.mem_cons_self
    exact ⟨h.remembers hlast hc,
      ih (h.next hlast hc hd) hd.next hrest hs fun c hc => ht c (List.mem_cons_of_mem _ hc)⟩

/-- On one clock that does not go back, every check finds what it has to count. -/
theorem remembers_of_sorted (hlog : s.log = []) (hd : (cs.map (·.member)).Nodup)
    (hs : cs.Pairwise fun c c' => c.nowMs ≤ c'.nowMs) (ht : ∀ c ∈ cs, c.time = c.nowMs) :
    Meets (WindowState.check key spec) (Remembers key spec) s cs := by
  cases cs with
  | nil => trivial
  | cons first rest =>
    have hkeeps : Keeps key spec first.nowMs s :=
      ⟨by simp [WindowState.allowed, hlog], by simp [WindowState.allowed, hlog]⟩
    refine hkeeps.meets (by simpa [Distinct, hlog] using hd) (fun c hc => ?_) hs ht
    rcases List.mem_cons.1 hc with rfl | hc
    · exact le_refl _
    · exact (List.pairwise_cons.1 hs).1 c hc

end

end TrafficPlatform
