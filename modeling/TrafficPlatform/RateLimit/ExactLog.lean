import TrafficPlatform.RateLimit.SlidingWindow

/-!
# The sliding window against the log of all checks

The exact limiter keeps every check: a check is allowed when fewer than `requests` of the allowed
ones have times in the window that ends at it. The script keeps a sorted set instead, which it
purges at every check and which Redis drops when no check was allowed for a window. On one clock
that does not go back the set still holds just what counts (`Keeps`), and nothing else (`Recorded`),
so that both count the same.
-/

namespace TrafficPlatform
open Kit

/-- The allowed checks of a log with times in `(t - window_ms, t]`. -/
def windowCount (spec : RateLimitSpec) (log : List (WindowCheck × RateLimitResult)) (t : Int) : Nat :=
  log.countP fun x => x.2.allowed && decide (t - spec.windowSeconds * 1000 < x.1.nowMs ∧ x.1.nowMs ≤ t)

/-- Every check of the log has the result that the checks before it determine. -/
def ExactLog (spec : RateLimitSpec) (log : List (WindowCheck × RateLimitResult)) : Prop :=
  ∀ before c r after, log = before ++ (c, r) :: after →
    (r.allowed = true ↔ (windowCount spec before c.nowMs : Int) < spec.requests) ∧
      (0 ≤ spec.requests →
        r.remaining = spec.requests - (windowCount spec before c.nowMs + if r.allowed then 1 else 0))

section
variable {key : RedisKey} {spec : RateLimitSpec} {s : WindowState} {c : WindowCheck}
    {cs : List WindowCheck} {last : Int}
  {log : List (WindowCheck × RateLimitResult)} {r : RateLimitResult}

theorem windowCount_log (spec : RateLimitSpec) (s : WindowState) (t : Int) :
    windowCount spec s.log t = (s.inWindow spec t).length := by
  unfold windowCount WindowState.inWindow WindowState.allowed
  rw [List.filter_map, List.length_map, List.filter_filter, ← List.countP_eq_length_filter]
  exact List.countP_congr fun x _ => by simp [and_comm]

theorem ExactLog.snoc (h : ExactLog spec log)
    (ha : r.allowed = true ↔ (windowCount spec log c.nowMs : Int) < spec.requests)
    (hr : 0 ≤ spec.requests → r.remaining = spec.requests -
      (windowCount spec log c.nowMs + if r.allowed then 1 else 0)) :
    ExactLog spec (log ++ [(c, r)]) := by
  intro before c' r' after he
  rcases List.eq_nil_or_concat after with rfl | ⟨after, x, rfl⟩
  · obtain ⟨rfl, hx⟩ := List.append_inj' he rfl
    obtain ⟨rfl, rfl⟩ := Prod.mk.inj (List.cons.inj hx).1
    exact ⟨ha, hr⟩
  · rw [List.concat_eq_append, ← List.cons_append, ← List.append_assoc] at he
    exact h before c' r' after (List.append_inj' he rfl).1

/-- The result of a check, by what the script counts. -/
theorem window_check_result (key : RedisKey) (spec : RateLimitSpec) (s : WindowState)
    (c : WindowCheck) :
    ∃ result : RateLimitResult, (s.check key spec c).log = s.log ++ [(c, result)] ∧
      (result.allowed = true ↔ ((counted key spec s c).length : Int) < spec.requests) ∧
      result.remaining =
        max 0 (spec.requests - ((counted key spec s c).length + if result.allowed then 1 else 0)) := by
  unfold counted WindowState.entries windowKey WindowCheck.nowMs WindowState.check
    SlidingWindowLimiter.check
    slidingWindowLua
  dsimp only
  split
  · rename_i h
    refine ⟨_, rfl, iff_of_true rfl h, ?_⟩
    dsimp only
    rw [if_pos (by decide), Int.sub_sub]
  · rename_i h
    refine ⟨_, rfl, iff_of_false (by simp) h, ?_⟩
    dsimp only
    rw [if_neg (by simp)]
    omega

/-! ### Nothing else is in the set -/

/-- The entries of the sorted set are the entries of allowed checks, each there once. -/
structure Recorded (key : RedisKey) (s : WindowState) : Prop where
  nodup : ∀ e, s.redis.zsets (windowKey key) = some e → e.value.Nodup
  allowed : ∀ e, s.redis.zsets (windowKey key) = some e → ∀ x ∈ e.value, ∃ a ∈ s.allowed,
    x = (a.nowMs, a.member)

theorem entries_of_mem {time : Millis} {x : Int × Member} (hx : x ∈ s.entries key time) :
    ∃ e, s.redis.zsets (windowKey key) = some e ∧ s.entries key time = e.value := by
  unfold WindowState.entries Store.get at hx ⊢
  cases hlive : s.redis.zsets.live time (windowKey key) with
  | none => rw [hlive] at hx; cases hx
  | some e => exact ⟨e, Store.eq_of_live hlive, rfl⟩

theorem Recorded.nodup_entries (h : Recorded key s) (time : Millis) : (s.entries key time).Nodup := by
  cases hs : s.entries key time with
  | nil => exact List.nodup_nil
  | cons x xs =>
    obtain ⟨e, he, hv⟩ := entries_of_mem (hs ▸ List.mem_cons_self : x ∈ s.entries key time)
    rw [← hs, hv]
    exact h.nodup e he

theorem Recorded.of_mem (h : Recorded key s) {time : Millis} {x : Int × Member}
    (hx : x ∈ s.entries key time) :
    ∃ a ∈ s.allowed, x = (a.nowMs, a.member) := by
  obtain ⟨e, he, hv⟩ := entries_of_mem hx
  exact h.allowed e he x (hv ▸ hx)

theorem pexpire_set_value {ν : Type} {z : Store RedisKey ν Millis} {k : RedisKey} {time : Millis}
    {v : ν} {ms : Int} {e : Entry ν Millis}
    (h : (pexpire time k ms (z.set time k v)) k = some e) : e.value = v := by
  by_cases hms : 0 < ms
  · rw [pexpire_set v hms] at h
    exact (Option.some.inj h) ▸ rfl
  · rw [pexpire, if_neg hms, Store.erase_self] at h
    cases h

theorem putZset_value {z : Store RedisKey (List (Int × Member)) Millis} {k : RedisKey}
    {time : Millis} {entries : List (Int × Member)} {e : Entry (List (Int × Member)) Millis}
    (h : (putZset time k entries z) k = some e) :
    e.value = entries := by
  unfold putZset at h
  split at h
  · rw [Store.erase_self] at h
    cases h
  · rw [Store.set_self] at h
    exact (Option.some.inj h) ▸ rfl

/-- A check keeps entries of allowed checks, and adds its own when it is allowed. -/
theorem Recorded.next (h : Recorded key s) (spec : RateLimitSpec) (c : WindowCheck) :
    Recorded key (s.check key spec c) := by
  have hnodup : (counted key spec s c).Nodup := (h.nodup_entries c.time).sublist List.filter_sublist
  have hold : ∀ x ∈ counted key spec s c, ∃ a ∈ s.allowed, x = (a.nowMs, a.member) :=
    fun x hx => h.of_mem (List.mem_filter.1 hx).1
  have hallowed := check_allowed key spec s c
  by_cases hc : ((counted key spec s c).length : Int) < spec.requests
  · obtain ⟨result, -, -, hz⟩ := check_of_lt hc
    rw [if_pos hc] at hallowed
    refine ⟨fun e he => ?_, fun e he x hx => ?_⟩ <;> rw [hz] at he
    · rw [pexpire_set_value he, zadd]
      refine List.Nodup.append (hnodup.sublist List.filter_sublist) (List.nodup_singleton _) ?_
      intro x hx hx'
      have hne := (List.mem_filter.1 hx).2
      rw [List.mem_singleton.1 hx'] at hne
      simp at hne
    · rw [pexpire_set_value he] at hx
      rw [hallowed]
      rcases List.mem_append.1 hx with hx | hx
      · obtain ⟨a, ha, rfl⟩ := hold x (List.mem_filter.1 hx).1
        exact ⟨a, List.mem_append_left _ ha, rfl⟩
      · exact ⟨c, by simp, List.mem_singleton.1 hx⟩
  · obtain ⟨result, -, -, hz⟩ := check_of_not_lt hc
    rw [if_neg hc, List.append_nil] at hallowed
    refine ⟨fun e he => ?_, fun e he x hx => ?_⟩ <;> rw [hz] at he
    · rw [putZset_value he]
      exact hnodup
    · rw [putZset_value he] at hx
      rw [hallowed]
      exact hold x hx

/-! ### The set counts what the log counts -/

/-- What the script counts are the allowed checks of the window. -/
theorem counted_perm (hk : Keeps key spec last s) (hr : Recorded key s)
    (hd : (s.allowed.map (·.member)).Nodup) (hn : ∀ a ∈ s.allowed, 0 ≤ a.nowMs)
    (hle : last ≤ c.nowMs) (ht : c.time = c.nowMs) :
    (counted key spec s c).Perm ((s.inWindow spec c.nowMs).map fun a => (a.nowMs, a.member)) := by
  have hnodup : ((s.inWindow spec c.nowMs).map fun a => (a.nowMs, a.member)).Nodup := by
    have hmembers : ((s.inWindow spec c.nowMs).map (·.member)).Nodup :=
      hd.sublist (List.filter_sublist.map _)
    exact List.Nodup.of_map Prod.snd (by rwa [List.map_map])
  refine (List.perm_ext_iff_of_nodup ((hr.nodup_entries c.time).sublist List.filter_sublist)
    hnodup).2 fun x => ?_
  constructor
  · intro hx
    obtain ⟨hx, hpurge⟩ := List.mem_filter.1 hx
    obtain ⟨a, ha, rfl⟩ := hr.of_mem hx
    have hpos := hn a ha
    have hlast := hk.le a ha
    have hgt : c.nowMs - spec.windowSeconds * 1000 < a.nowMs := by
      by_contra hle
      simp [hpos, not_lt.1 hle] at hpurge
    exact List.mem_map_of_mem (List.mem_filter.2 ⟨ha, by simp only [decide_eq_true_eq]; omega⟩)
  · intro hx
    obtain ⟨a, ha, rfl⟩ := List.mem_map.1 hx
    obtain ⟨ha, hw⟩ := List.mem_filter.1 ha
    obtain ⟨-, -, hmem, -⟩ := hk.live hle ht ha (of_decide_eq_true hw).1
    exact hmem

/-- What holds after some checks on one clock, the last of them at `last`. -/
structure Exact (key : RedisKey) (spec : RateLimitSpec) (last : Int) (s : WindowState) : Prop where
  keeps : Keeps key spec last s
  recorded : Recorded key s
  nonneg : ∀ a ∈ s.allowed, 0 ≤ a.nowMs
  limited : 0 ≤ spec.requests → Limited spec s
  log : ExactLog spec s.log

/-- One check: its result is the one that the log determines, and the set keeps counting what the
log counts. -/
theorem Exact.next (h : Exact key spec last s) (hd : Distinct s (c :: cs)) (hn : 0 ≤ c.nowMs)
    (hle : last ≤ c.nowMs)
    (ht : c.time = c.nowMs) : Exact key spec c.nowMs (s.check key spec c) := by
  have hcount : (counted key spec s c).length = windowCount spec s.log c.nowMs := by
    have hperm := counted_perm h.keeps h.recorded hd.allowed h.nonneg hle ht
    rw [hperm.length_eq, List.length_map, windowCount_log]
  obtain ⟨result, hlog, hallowed, hremaining⟩ := window_check_result key spec s c
  refine ⟨h.keeps.next hle ht hd, h.recorded.next spec c, fun a ha => ?_, fun hr => ?_, ?_⟩
  · rw [check_allowed] at ha
    rcases List.mem_append.1 ha with ha | ha
    · exact h.nonneg a ha
    · split at ha
      · exact (List.mem_singleton.1 ha) ▸ hn
      · cases ha
  · exact (h.keeps.remembers hle ht).limited hd.allowed (h.limited hr)
  · rw [hcount] at hallowed hremaining
    rw [hlog]
    refine h.log.snoc hallowed fun hr => ?_
    -- no more than `requests` checks are counted, so that the script's zero is their difference
    have hle : (windowCount spec s.log c.nowMs : Int) ≤ spec.requests := by
      rw [windowCount_log]
      exact h.limited hr c.nowMs
    rw [hremaining]
    split
    · have := hallowed.1 ‹_›
      omega
    · omega

theorem Exact.run (h : Exact key spec last s) (hd : Distinct s cs) (hn : ∀ c ∈ cs, 0 ≤ c.nowMs)
    (hle : ∀ c ∈ cs, last ≤ c.nowMs) (hs : cs.Pairwise fun c c' => c.nowMs ≤ c'.nowMs)
    (ht : ∀ c ∈ cs, c.time = c.nowMs) :
    ExactLog spec (run (WindowState.check key spec) s cs).log := by
  induction cs generalizing s last with
  | nil => exact h.log
  | cons c cs ih =>
    obtain ⟨hrest, hs⟩ := List.pairwise_cons.1 hs
    have hnext := h.next hd (hn c List.mem_cons_self) (hle c List.mem_cons_self)
      (ht c List.mem_cons_self)
    exact ih hnext hd.next (fun c hc => hn c (List.mem_cons_of_mem _ hc)) hrest hs
      fun c hc => ht c (List.mem_cons_of_mem _ hc)

theorem run_log (key : RedisKey) (spec : RateLimitSpec) (s : WindowState) (cs : List WindowCheck) :
    (run (WindowState.check key spec) s cs).log.map (·.1) = s.log.map (·.1) ++ cs := by
  induction cs generalizing s with
  | nil => simp [Kit.run]
  | cons c cs ih =>
    obtain ⟨result, hlog⟩ := check_log key spec s c
    rw [run_cons, ih, hlog]
    simp

variable (key spec s cs) in
/-- On one clock that does not go back, every check of a run on a new key has the result that the
log of all checks determines. `time.time()` counts from the epoch, so that no time is negative. -/
theorem sliding_window_exact (hempty : s.redis.zsets (windowKey key) = none) (hlog : s.log = [])
    (hd : (cs.map (·.member)).Nodup) (hn : ∀ c ∈ cs, 0 ≤ c.nowMs)
    (hs : cs.Pairwise fun c c' => c.nowMs ≤ c'.nowMs) (ht : ∀ c ∈ cs, c.time = c.nowMs) :
    (run (WindowState.check key spec) s cs).log.map (·.1) = cs ∧
      ExactLog spec (run (WindowState.check key spec) s cs).log := by
  refine ⟨by rw [run_log, hlog]; rfl, ?_⟩
  have hallowed : s.allowed = [] := by rw [WindowState.allowed, hlog]; rfl
  have hexact : Exact key spec 0 s := by
    refine ⟨⟨by simp [hallowed], by simp [hallowed]⟩, ⟨by simp [hempty], by simp [hempty]⟩, by
      simp [hallowed],
      fun hr t => by simpa [WindowState.inWindow, hallowed] using hr, ?_⟩
    intro before c r after he
    rw [hlog] at he
    simp at he
  exact hexact.run (by simpa [Distinct, hlog] using hd) hn hn hs ht

end

def sampleChecks : List WindowCheck :=
  [⟨0, 1, 0⟩, ⟨0, 2, 0⟩, ⟨999 / 1000, 3, 999⟩, ⟨1, 4, 1000⟩, ⟨3, 5, 3000⟩]

/-- Two requests a second: the entries of the first two leave the window at one second, and Redis
has dropped the set before the last check. -/
theorem sliding_window_exact_five :
    let log := (run (WindowState.check [] windowSpec) sampleWindow sampleChecks).log
    log.map (·.2.allowed) = [true, true, false, true, true] ∧ ExactLog windowSpec log :=
  ⟨by decide +kernel, (sliding_window_exact [] windowSpec sampleWindow sampleChecks rfl rfl (by decide +kernel)
    (by decide +kernel) (by decide +kernel) (by decide +kernel)).2⟩

end TrafficPlatform
