import TrafficPlatform.Gateway.Accounting
import TrafficPlatform.Kit.Isolation

/-!
# The limits of one key are its own

The counters of the quotas and of the rate limit belong to an API key, so a call sees of Redis what
the calls with the same key have left there. However the steps of concurrent calls are interleaved,
the calls with one key are answered as if the calls with other keys had taken no step
(`keys_isolated`).
-/

namespace TrafficPlatform
open Kit Gateway GatewayService

/-! ### The keys of the limiters -/

namespace LimiterStore

/-- The two stores hold the same under the keys of one limited key. -/
structure AgreeAt (key : RedisKey) (s s' : LimiterStore) : Prop where
  counters : s'.counters (.text "rl" :: .text "fw" :: key) =
    s.counters (.text "rl" :: .text "fw" :: key)
  zsets : s'.zsets (.text "rl" :: .text "sw" :: key) = s.zsets (.text "rl" :: .text "sw" :: key)
  hashes : s'.hashes (.text "rl" :: .text "tb" :: key) = s.hashes (.text "rl" :: .text "tb" :: key)

theorem AgreeAt.symm {key : RedisKey} {s s' : LimiterStore} (h : AgreeAt key s s') : AgreeAt key s' s :=
  ⟨h.counters.symm, h.zsets.symm, h.hashes.symm⟩

theorem AgreeAt.trans {key : RedisKey} {s s' s'' : LimiterStore} (h : AgreeAt key s s')
    (h' : AgreeAt key s' s'') :
    AgreeAt key s s'' :=
      ⟨h'.counters.trans h.counters, h'.zsets.trans h.zsets, h'.hashes.trans h.hashes⟩

end LimiterStore

section
variable {ν : Type} {s s' : Store RedisKey ν Millis} {key key' : RedisKey} {time : Millis} {ms : Int}

theorem set_congr (v : ν) (h : s' key = s key) : (s'.set time key v) key = (s.set time key v) key := by
  rw [Store.set_self, Store.set_self, Store.live_congr h]

theorem pexpire_congr (h : s' key = s key) : (pexpire time key ms s') key =
    (pexpire time key ms s) key := by
  unfold pexpire
  split
  · rw [Store.expire_self, Store.expire_self, Store.live_congr h]
  · rw [Store.erase_self, Store.erase_self]

theorem pexpire_of_ne (h : key' ≠ key) : (pexpire time key ms s) key' = s key' := by
  unfold pexpire
  split
  · exact Store.expire_of_ne h _
  · exact Store.erase_of_ne h

theorem pttl_congr (h : s' key = s key) : pttl time key s' = pttl time key s := by
  unfold pttl
  rw [Store.live_congr h]

end

section
variable {key key' : RedisKey} {limit window nowMs ttlMs : Int} {time : Millis} {member : Member}
    {capacity refillRate now : ℚ}

theorem fixedWindowLua_local (limit window : Int) (time : Millis) {s s' : Store RedisKey Int Millis}
    (h : s' key = s key) :
    (fixedWindowLua key limit window time s').1 = (fixedWindowLua key limit window time s).1 ∧
      (fixedWindowLua key limit window time s').2 key =
          (fixedWindowLua key limit window time s).2 key := by
  have hget : s'.get time key = s.get time key := Store.get_congr h
  have hset : ∀ v, (s'.set time key v) key = (s.set time key v) key := fun v => set_congr v h
  unfold fixedWindowLua
  simp only [hget]
  by_cases hone : (s.get time key).getD 0 + 1 = 1
  · have hexpire : ∀ v, (pexpire time key (window * 1000) (s'.set time key v)) key =
        (pexpire time key (window * 1000) (s.set time key v)) key := fun v => pexpire_congr (hset v)
    simp only [if_pos hone, pttl_congr (hexpire _)]
    split <;> exact ⟨rfl, hexpire _⟩
  · simp only [if_neg hone, pttl_congr (hset _)]
    split <;> exact ⟨rfl, hset _⟩

theorem fixedWindowLua_of_ne (h : key' ≠ key) (s : Store RedisKey Int Millis) :
    (fixedWindowLua key limit window time s).2 key' = s key' := by
  unfold fixedWindowLua
  simp only
  by_cases hone : (s.get time key).getD 0 + 1 = 1
  · simp only [if_pos hone]
    split <;> exact (pexpire_of_ne h).trans (Store.set_of_ne h _)
  · simp only [if_neg hone]
    split <;> exact Store.set_of_ne h _

theorem putZset_congr {entries : List (Int × Member)}
    {s s' : Store RedisKey (List (Int × Member)) Millis} (h : s' key = s key) :
    (putZset time key entries s') key = (putZset time key entries s) key := by
  unfold putZset
  split
  · rw [Store.erase_self, Store.erase_self]
  · exact set_congr _ h

theorem putZset_of_ne {entries : List (Int × Member)} (h : key' ≠ key)
    (s : Store RedisKey (List (Int × Member)) Millis) :
    (putZset time key entries s) key' = s key' := by
  unfold putZset
  split
  · exact Store.erase_of_ne h
  · exact Store.set_of_ne h _

theorem slidingWindowLua_local (limit window nowMs : Int) (member : Member) (time : Millis)
    {s s' : Store RedisKey (List (Int × Member)) Millis} (h : s' key = s key) :
    (slidingWindowLua key limit window nowMs member time s').1 =
      (slidingWindowLua key limit window nowMs member time s).1 ∧
      (slidingWindowLua key limit window nowMs member time s').2 key =
        (slidingWindowLua key limit window nowMs member time s).2 key := by
  unfold slidingWindowLua
  have hget : s'.get time key = s.get time key := Store.get_congr h
  simp only [hget]
  split
  · exact ⟨rfl, pexpire_congr (set_congr _ (putZset_congr h))⟩
  · exact ⟨rfl, putZset_congr h⟩

theorem slidingWindowLua_of_ne (h : key' ≠ key) (s : Store RedisKey (List (Int × Member)) Millis) :
    (slidingWindowLua key limit window nowMs member time s).2 key' = s key' := by
  unfold slidingWindowLua
  simp only
  split
  · exact (pexpire_of_ne h).trans ((Store.set_of_ne h _).trans (putZset_of_ne h s))
  · exact putZset_of_ne h s

theorem tokenBucketLua_local (fl : ℚ → ℚ) (capacity refillRate now : ℚ) (ttlMs : Int) (time : Millis)
    {s s' : Store RedisKey TokenHash Millis} (h : s' key = s key) :
    (tokenBucketLua fl key capacity refillRate now ttlMs time s').1 =
        (tokenBucketLua fl key capacity refillRate now ttlMs time s).1 ∧
      (tokenBucketLua fl key capacity refillRate now ttlMs time s').2 key =
        (tokenBucketLua fl key capacity refillRate now ttlMs time s).2 key := by
  unfold tokenBucketLua
  have hget : s'.get time key = s.get time key := Store.get_congr h
  simp only [hget]
  split <;> exact ⟨by trivial, pexpire_congr (set_congr _ h)⟩

theorem tokenBucketLua_of_ne {fl : ℚ → ℚ} (h : key' ≠ key) (s : Store RedisKey TokenHash Millis) :
    (tokenBucketLua fl key capacity refillRate now ttlMs time s).2 key' = s key' := by
  unfold tokenBucketLua
  simp only
  split <;> exact (pexpire_of_ne h).trans (Store.set_of_ne h _)

end

/-! ### The checks -/

/-- The script of a check answers by what is under its key, and changes nothing else. -/
structure Local (key : RedisKey)
    (script : LimiterStore → Except Failure (RateLimitResult × LimiterStore)) : Prop where
  congr : ∀ s s', LimiterStore.AgreeAt key s s' →
    (∃ result t t', script s = .ok (result, t) ∧ script s' = .ok (result, t') ∧
      LimiterStore.AgreeAt key t t') ∨
      ∃ e, script s = .error e ∧ script s' = .error e
  frame : ∀ s result t, script s = .ok (result, t) → ∀ key', key' ≠ key → LimiterStore.AgreeAt key' s t

section
variable {key : RedisKey} {spec : RateLimitSpec} {time : Millis}

theorem fixedWindow_local : Local key fun s => .ok (FixedWindowLimiter.check key spec time s) where
  congr s s' h := by
    obtain ⟨hanswer, hstore⟩ := fixedWindowLua_local spec.requests spec.windowSeconds time h.counters
    have hcheck : (FixedWindowLimiter.check key spec time s').1 =
        (FixedWindowLimiter.check key spec time s).1 := by
      simp only [FixedWindowLimiter.check, hanswer]
    refine .inl ⟨(FixedWindowLimiter.check key spec time s).1,
      (FixedWindowLimiter.check key spec time s).2,
      (FixedWindowLimiter.check key spec time s').2, rfl, ?_, hstore, h.zsets, h.hashes⟩
    rw [← hcheck]
  frame s result t ht key' hne := by
    cases ht
    have hne' : (KeyPart.text "rl" :: KeyPart.text "fw" :: key') ≠ .text "rl" :: .text "fw" ::
      key := by simpa using hne
    exact ⟨fixedWindowLua_of_ne hne' _, rfl, rfl⟩

theorem slidingWindow_local {now : ℚ} {perfCounterNs : Nat} :
    Local key fun s => .ok (SlidingWindowLimiter.check key spec now perfCounterNs time s) where
  congr s s' h := by
    obtain ⟨hanswer, hstore⟩ := slidingWindowLua_local spec.requests (spec.windowSeconds * 1000)
      (pyInt (now * 1000))
      (pyInt (now * 1000), perfCounterNs) time h.zsets
    have hcheck : (SlidingWindowLimiter.check key spec now perfCounterNs time s').1 =
        (SlidingWindowLimiter.check key spec now perfCounterNs time s).1 := by
      simp only [SlidingWindowLimiter.check, hanswer]
    refine .inl ⟨(SlidingWindowLimiter.check key spec now perfCounterNs time s).1,
      (SlidingWindowLimiter.check key spec now perfCounterNs time s).2,
      (SlidingWindowLimiter.check key spec now perfCounterNs time s').2, rfl, ?_, h.counters,
        hstore, h.hashes⟩
    rw [← hcheck]
  frame s result t ht key' hne := by
    cases ht
    have hne' : (KeyPart.text "rl" :: KeyPart.text "sw" :: key') ≠ .text "rl" :: .text "sw" ::
      key := by simpa using hne
    exact ⟨rfl, slidingWindowLua_of_ne hne' _, rfl⟩

theorem tokenBucket_local {now : ℚ} :
    Local key fun s => TokenBucketLimiter.check Double.round key spec now time s where
  congr s s' h := by
    obtain ⟨hanswer, hstore⟩ := tokenBucketLua_local Double.round (Double.round spec.capacity)
      (spec.refillRate Double.round) (Double.round now) (spec.ttlMs Double.round) time h.hashes
    unfold TokenBucketLimiter.check
    by_cases hzero : spec.windowSeconds = 0 ∨ spec.refillRate Double.round = 0
    · exact .inr ⟨_, if_pos hzero, if_pos hzero⟩
    · simp only [if_neg hzero, hanswer]
      exact .inl ⟨_, _, _, rfl, rfl, h.counters, h.zsets, hstore⟩
  frame s result t ht key' hne := by
    unfold TokenBucketLimiter.check at ht
    split at ht
    · cases ht
    · cases ht
      have hne' : (KeyPart.text "rl" :: KeyPart.text "tb" :: key') ≠ .text "rl" :: .text "tb" ::
        key := by simpa using hne
      exact ⟨rfl, rfl, tokenBucketLua_of_ne hne' _⟩

end

/-! ### What a call sees -/

/-- What the world has for one API key: the counters of its quotas and of its rate limits. The clock
of the second world may be behind, since fewer calls have read it. -/
structure SameFor (k : Uuid) (w w' : World PlatformOutside) : Prop where
  clock : w'.clock ≤ w.clock
  redis : ∀ period bucket, w'.redis (quotaKey k period bucket) = w.redis (quotaKey k period bucket)
  limits : ∀ apiId, LimiterStore.AgreeAt [.uuid apiId, .uuid k] w.outside.limits w'.outside.limits

/-- Every clock reading is one of a clock that does not go back. -/
def keyIsolation (k : Uuid) : Isolation platformTables.backend where
  ok env w := w.clock ≤ env.time
  Sim := SameFor k

instance (k : Uuid) (env : Env PlatformInput) (w : World PlatformOutside) :
    Decidable ((keyIsolation k).ok env w) :=
  inferInstanceAs (Decidable (w.clock ≤ env.time))

/-- The effects of a call with the API key `k` satisfy `G`. -/
structure CallEffects
    (G : {β : Type} →
      (Env PlatformInput → World PlatformOutside → Except Failure β × World PlatformOutside) → Prop)
    (db : PlatformDb) (k : Uuid) : Prop where
  now : (now : Platform Time).Effects G db fun _ => True
  perfCounterNs : perfCounterNs.Effects G db fun _ => True
  inSomeOrder : ∀ rows : List Quota, (inSomeOrder rows).Effects G db fun _ => True
  httpRequest : ∀ cfg r, (httpRequest cfg r).Effects G db fun _ => True
  redisIncr : ∀ period bucket, (redisIncr (quotaKey k period bucket) : Platform Int).Effects G db
    fun _ => True
  redisDecr : ∀ period bucket, (redisDecr (quotaKey k period bucket) : Platform Int).Effects G db
    fun _ => True
  redisExpire : ∀ period bucket n,
    (redisExpire (quotaKey k period bucket) n : Platform Unit).Effects G db fun _ => True
  redisEval : ∀ apiId script, (∀ time, Local [.uuid apiId, .uuid k] (script time)) →
    (redisEval script).Effects G db fun _ => True

section
variable {db : PlatformDb} {k k' : Uuid} {w w' : World PlatformOutside} {env : Env PlatformInput}

theorem max_clock (hok : w.clock ≤ env.time) (h : SameFor k w w') :
    max w'.clock env.time = env.time ∧ max w.clock env.time = env.time :=
  ⟨max_eq_right (le_trans h.clock hok), max_eq_right hok⟩

/-- A command that acts on the counter `x` alone. -/
structure ActsAt (x : RedisKey) {α : Type}
    (f : Env PlatformInput → World PlatformOutside → α × World PlatformOutside) : Prop where
  congr : ∀ env w w', w'.redis x = w.redis x → max w'.clock env.time = max w.clock env.time →
    (f env w).1 = (f env w').1 ∧ (f env w').2.redis x = (f env w).2.redis x
  clock : ∀ env w, (f env w).2.clock = max w.clock env.time
  outside : ∀ env w, (f env w).2.outside = w.outside
  frame : ∀ env w y, y ≠ x → (f env w).2.redis y = w.redis y

theorem incr_actsAt (x : RedisKey) : ActsAt x (World.incr x) where
  congr env w w' h htime := by
    unfold World.incr
    simp only [htime]
    rw [Store.get_congr h]
    exact ⟨rfl, by rw [Store.set_self, Store.set_self, Store.live_congr h]⟩
  clock _ _ := rfl
  outside _ _ := rfl
  frame _ _ _ h := Store.set_of_ne h _

theorem decr_actsAt (x : RedisKey) : ActsAt x (World.decr x) where
  congr env w w' h htime := by
    unfold World.decr
    simp only [htime]
    rw [Store.get_congr h]
    exact ⟨rfl, by rw [Store.set_self, Store.set_self, Store.live_congr h]⟩
  clock _ _ := rfl
  outside _ _ := rfl
  frame _ _ _ h := Store.set_of_ne h _

theorem expire_actsAt (x : RedisKey) (n : Nat) : ActsAt x (World.expire x n) where
  congr env w w' h htime := by
    unfold World.expire
    simp only [htime]
    exact ⟨trivial, by rw [Store.expire_self, Store.expire_self, Store.live_congr h]⟩
  clock _ _ := rfl
  outside _ _ := rfl
  frame _ _ _ h := Store.expire_of_ne h _

theorem ActsAt.sees {α : Type}
    {f : Env PlatformInput → World PlatformOutside → α × World PlatformOutside}
    {period : QuotaPeriod} {bucket : List KeyPart} (h : ActsAt (quotaKey k period bucket) f) :
    (Prog.ask f : Platform α).Effects (keyIsolation k).Sees db fun _ => True := by
  refine Prog.effects_ask_sees fun env w w' hok hsim => ?_
  obtain ⟨hmax', hmax⟩ := max_clock hok hsim
  obtain ⟨hanswer, hself⟩ := h.congr env w w' (hsim.redis period bucket) (hmax'.trans hmax.symm)
  refine ⟨hanswer, ?_, fun p b => ?_, fun a => ?_⟩
  · rw [h.clock, h.clock, hmax, hmax']
  · by_cases hkey : quotaKey k p b = quotaKey k period bucket
    · rw [hkey]
      exact hself
    · rw [h.frame _ _ _ hkey, h.frame _ _ _ hkey]
      exact hsim.redis p b
  · rw [h.outside, h.outside]
    exact hsim.limits a

theorem ActsAt.spares {α : Type}
    {f : Env PlatformInput → World PlatformOutside → α × World PlatformOutside}
    {period : QuotaPeriod} {bucket : List KeyPart} (h : ActsAt (quotaKey k' period bucket) f)
    (hne : k' ≠ k) :
    (Prog.ask f : Platform α).Effects (keyIsolation k).Spares db fun _ => True := by
  refine Prog.effects_ask_spares fun env w w' hok hsim => ⟨?_, fun p b => ?_, fun a => ?_⟩
  · rw [h.clock]
    exact le_trans hsim.clock (le_max_left _ _)
  · have hkey : quotaKey k p b ≠ quotaKey k' period bucket := by
      intro heq
      simp only [quotaKey, List.cons_append, List.nil_append, List.cons.injEq, KeyPart.uuid.injEq,
        true_and] at heq
      exact hne heq.1.symm
    rw [h.frame _ _ _ hkey]
    exact hsim.redis p b
  · rw [h.outside]
    exact hsim.limits a

/-- A command that leaves the counters and the limits alone. -/
structure LeavesKeys {α : Type}
    (f : Env PlatformInput → World PlatformOutside → α × World PlatformOutside) : Prop where
  congr : ∀ env w w', max w'.clock env.time = max w.clock env.time → (f env w).1 = (f env w').1
  clock : (∀ env w, (f env w).2.clock = max w.clock env.time) ∨ ∀ env w, (f env w).2.clock = w.clock
  redis : ∀ env w, (f env w).2.redis = w.redis
  limits : ∀ env w, (f env w).2.outside.limits = w.outside.limits

theorem LeavesKeys.sees {α : Type}
    {f : Env PlatformInput → World PlatformOutside → α × World PlatformOutside} (h : LeavesKeys f) :
    (Prog.ask f : Platform α).Effects (keyIsolation k).Sees db fun _ => True := by
  refine Prog.effects_ask_sees fun env w w' hok hsim => ?_
  obtain ⟨hmax', hmax⟩ := max_clock hok hsim
  refine ⟨h.congr env w w' (hmax'.trans hmax.symm), ?_, fun p b => ?_, fun a => ?_⟩
  · rcases h.clock with hclock | hclock
    · rw [hclock, hclock, hmax, hmax']
    · rw [hclock, hclock]
      exact hsim.clock
  · rw [h.redis, h.redis]
    exact hsim.redis p b
  · rw [h.limits, h.limits]
    exact hsim.limits a

theorem LeavesKeys.spares {α : Type}
    {f : Env PlatformInput → World PlatformOutside → α × World PlatformOutside} (h : LeavesKeys f) :
    (Prog.ask f : Platform α).Effects (keyIsolation k).Spares db fun _ => True := by
  refine Prog.effects_ask_spares fun env w w' hok hsim => ⟨?_, fun p b => ?_, fun a => ?_⟩
  · rcases h.clock with hclock | hclock <;> rw [hclock]
    · exact le_trans hsim.clock (le_max_left _ _)
    · exact hsim.clock
  · rw [h.redis]
    exact hsim.redis p b
  · rw [h.limits]
    exact hsim.limits a

theorem readClock_leavesKeys :
    LeavesKeys (World.readClock : Env PlatformInput → World PlatformOutside → Time ×
        World PlatformOutside) :=
  ⟨fun _ _ _ h => h.symm, .inl fun _ _ => rfl, fun _ _ => rfl, fun _ _ => rfl⟩

/-- The script of a check sees what is under its key. -/
theorem redisEval_sees {apiId : Uuid}
    {script : Millis → LimiterStore → Except Failure (RateLimitResult × LimiterStore)}
    (h : ∀ time, Local [.uuid apiId, .uuid k] (script time)) :
        (redisEval script).Effects (keyIsolation k).Sees db fun _ => True := by
  unfold redisEval
  refine Prog.Effects.bind (Q := fun _ => True) ⟨fun env w w' hok hsim => ?_, fun _ => trivial⟩
    fun r _ => ?_
  · obtain ⟨hmax', hmax⟩ := max_clock hok hsim
    simp only [hmax', hmax]
    rcases (h env.time.millis).congr _ _ (hsim.limits apiId) with ⟨result, t, t', ht, ht', hagree⟩
      | ⟨e, he, he'⟩
    · simp only [ht, ht']
      refine ⟨trivial, le_refl _, hsim.redis, fun a => ?_⟩
      by_cases ha : a = apiId
      · rw [ha]
        exact hagree
      · have hne : ([.uuid a, .uuid k] : RedisKey) ≠ [.uuid apiId, .uuid k] := by simpa using ha
        have hold := (h env.time.millis).frame _ _ _ ht _ hne
        have hnew := (h env.time.millis).frame _ _ _ ht' _ hne
        exact (hold.symm.trans (hsim.limits a)).trans hnew
    · simp only [he, he']
      exact ⟨trivial, hsim⟩
  · cases r <;> trivial

theorem redisEval_spares {apiId : Uuid}
    {script : Millis → LimiterStore → Except Failure (RateLimitResult × LimiterStore)}
    (h : ∀ time, Local [.uuid apiId, .uuid k'] (script time)) (hne : k' ≠ k) :
    (redisEval script).Effects (keyIsolation k).Spares db fun _ => True := by
  unfold redisEval
  refine Prog.Effects.bind (Q := fun _ => True) ⟨fun env w w' hok hsim => ?_, fun _ => trivial⟩
    fun r _ => ?_
  · dsimp only
    split
    · rename_i result t ht
      refine ⟨le_trans hsim.clock (le_max_left _ _), hsim.redis, fun a => ?_⟩
      have hkey : ([.uuid a, .uuid k] : RedisKey) ≠ [.uuid apiId, .uuid k'] := by
        intro heq
        simp only [List.cons.injEq, KeyPart.uuid.injEq, and_true] at heq
        exact hne heq.2.symm
      exact ((h _).frame _ _ _ ht _ hkey).symm.trans (hsim.limits a)
    · exact hsim
  · cases r <;> trivial

theorem perfCounterNs_leavesKeys :
    LeavesKeys (fun (env : Env PlatformInput) (w : World PlatformOutside) => (env.number, w)) :=
  ⟨fun _ _ _ _ => rfl, .inr fun _ _ => rfl, fun _ _ => rfl, fun _ _ => rfl⟩

theorem inSomeOrder_leavesKeys (rows : List Quota) :
    LeavesKeys (fun (env : Env PlatformInput) (w : World PlatformOutside) =>
        (rows.rotate env.number, w)) :=
  ⟨fun _ _ _ _ => rfl, .inr fun _ _ => rfl, fun _ _ => rfl, fun _ _ => rfl⟩

theorem sees_call (db : PlatformDb) (k : Uuid) : CallEffects (keyIsolation k).Sees db k where
  now := readClock_leavesKeys.sees
  perfCounterNs := perfCounterNs_leavesKeys.sees
  inSomeOrder rows := (inSomeOrder_leavesKeys rows).sees
  httpRequest _ _ :=
    LeavesKeys.sees ⟨fun _ _ _ _ => rfl, .inl fun _ _ => rfl, fun _ _ => rfl, fun _ _ => rfl⟩
  redisIncr _ _ := (incr_actsAt _).sees
  redisDecr _ _ := (decr_actsAt _).sees
  redisExpire _ _ n := (expire_actsAt _ n).sees
  redisEval _ _ h := redisEval_sees h

theorem spares_call (db : PlatformDb) (hne : k' ≠ k) : CallEffects (keyIsolation k).Spares db k' where
  now := readClock_leavesKeys.spares
  perfCounterNs := perfCounterNs_leavesKeys.spares
  inSomeOrder rows := (inSomeOrder_leavesKeys rows).spares
  httpRequest _ _ :=
    LeavesKeys.spares ⟨fun _ _ _ _ => rfl, .inl fun _ _ => rfl, fun _ _ => rfl, fun _ _ => rfl⟩
  redisIncr _ _ := (incr_actsAt _).spares hne
  redisDecr _ _ := (decr_actsAt _).spares hne
  redisExpire _ _ n := (expire_actsAt _ n).spares hne
  redisEval _ _ h := redisEval_spares h hne

end

/-! ### The call -/

/-- The call presents the API key `k`. -/
def presents (cfg : GatewayConfig) (db : PlatformDb) (k : Uuid)
    (r : IncomingRequest × Option String) : Bool :=
  r.2.any fun raw => db.apiKeys.rows.any fun key => key.id == k && key.keyHash == cfg.hashToken raw

section
variable {G : {β : Type} →
    (Env PlatformInput → World PlatformOutside → Except Failure β × World PlatformOutside) → Prop}
  {db : PlatformDb} {k : Uuid} {cfg : GatewayConfig}

/-- The key that authenticates is the one that is presented. -/
theorem authenticate_effects (hnow : (now : Platform Time).Effects G db fun _ => True)
    (presentedKey : Option String) :
    (authenticate cfg presentedKey).Effects G db
      fun x => ∃ raw, presentedKey = some raw ∧ x.1 ∈ db.apiKeys.rows ∧
      x.1.keyHash = cfg.hashToken raw := by
  unfold authenticate
  cases hfilter : presentedKey.filter fun raw => raw != "" with
  | none => trivial
  | some raw =>
    have hraw : presentedKey = some raw := (Option.filter_eq_some_iff.1 hfilter).1
    refine Prog.Effects.bind
      (Q := fun row => ∀ x, row = some x → x.1 ∈ db.apiKeys.rows ∧ x.1.keyHash = cfg.hashToken raw)
      (Prog.effects_query fun x hx => ?_) fun row hrow => ?_
    · obtain ⟨key, hkey, hapi⟩ := Option.bind_eq_some_iff.1 hx
      obtain ⟨api, -, rfl⟩ := Option.map_eq_some_iff.1 hapi
      exact ⟨Table.mem_of_one hkey, by simpa using Table.pred_of_one hkey⟩
    · cases row with
      | none => trivial
      | some x =>
        refine hnow.bind fun time _ => ?_
        split
        · trivial
        · split
          · trivial
          · exact ⟨raw, hraw, hrow x rfl⟩

theorem consume_effects (h : CallEffects G db k) (period : QuotaPeriod) (limit : Int) :
    (QuotaEnforcer.consume (T := platformTables) k period limit).Effects G db fun _ => True := by
  unfold QuotaEnforcer.consume
  refine h.now.bind fun time _ => (h.redisIncr _ _).bind fun used _ => ?_
  split
  · exact (h.redisExpire _ _ _).bind fun _ _ => trivial
  · trivial

theorem rollbackQuota_effects (h : CallEffects G db k) (periods : List QuotaPeriod) :
    (rollbackQuota k periods).Effects G db fun _ => True := by
  induction periods with
  | nil => trivial
  | cons period periods ih =>
    refine Prog.Effects.bind (Q := fun _ => True) ?_ fun _ _ => ih
    exact h.now.bind fun time _ => (h.redisDecr _ _).bind fun _ _ => trivial

theorem consumeEach_effects (h : CallEffects G db k) (quotas : List Quota)
    (consumed : List QuotaPeriod) :
    (consumeEach k quotas consumed).Effects G db fun _ => True := by
  induction quotas generalizing consumed with
  | nil => trivial
  | cons quota quotas ih =>
    refine (consume_effects h _ _).bind fun check _ => ?_
    split
    · exact (rollbackQuota_effects h _).bind fun _ _ => trivial
    · exact ih _

theorem checkLimit_effects (h : CallEffects G db k) (algorithm : RateLimitAlgorithm) (apiId : Uuid)
    (spec : RateLimitSpec) :
    (checkLimit algorithm [.uuid apiId, .uuid k] spec).Effects G db fun _ => True := by
  unfold checkLimit
  cases algorithm with
  | fixedWindow =>
    exact h.redisEval apiId (fun time s => .ok (FixedWindowLimiter.check _ spec time s))
      fun _ => fixedWindow_local
  | slidingWindow =>
    refine h.now.bind fun time _ => h.perfCounterNs.bind fun perfCounter _ => ?_
    refine h.redisEval apiId
      (fun redisTime s => .ok (SlidingWindowLimiter.check _ spec time.unix perfCounter redisTime s))
        fun _ => ?_
    exact slidingWindow_local
  | tokenBucket =>
    refine h.now.bind fun time _ => ?_
    exact h.redisEval apiId
      (fun redisTime s => TokenBucketLimiter.check Double.round _ spec time.unix redisTime s)
        fun _ => tokenBucket_local

theorem forward_effects (h : CallEffects G db k) (url : String) (req : IncomingRequest) :
    (forward cfg url req).Effects G db fun _ => True := by
  unfold forward
  refine h.perfCounterNs.bind fun start _ => (h.httpRequest _ _).bind fun upstream _ => ?_
  cases upstream with
  | error e => trivial
  | ok upstream => exact h.perfCounterNs.bind fun stop _ => trivial

/-- The effects of a call are those of the key that it presents. -/
theorem handle_effects (hnow : (now : Platform Time).Effects G db fun _ => True) (req : IncomingRequest)
    (presentedKey : Option String)
    (h : ∀ raw, presentedKey = some raw → ∀ key ∈ db.apiKeys.rows,
        key.keyHash = cfg.hashToken raw →
      CallEffects G db key.id) : (handle cfg req presentedKey).Effects G db fun _ => True := by
  unfold handle
  refine Prog.Effects.bind (Q := fun x => CallEffects G db x.1.id) ?_ fun x hx => ?_
  · unfold resolve
    refine (authenticate_effects hnow presentedKey).bind fun x hx => ?_
    obtain ⟨raw, hraw, hkey, hhash⟩ := hx
    dsimp only
    split
    · trivial
    · refine (Prog.effects_query (Q := fun _ => True) trivial).bind fun version _ => ?_
      split
      · trivial
      · exact h raw hraw _ hkey hhash
  · refine Prog.Effects.bind (Q := fun _ => True) ?_ fun rateInfo _ => ?_
    · refine (Prog.effects_query (Q := fun _ => True) trivial).bind fun rule _ => ?_
      cases rule with
      | none => trivial
      | some rule =>
        refine (checkLimit_effects hx _ _ _).bind fun result _ => ?_
        split <;> trivial
    · refine Prog.Effects.bind (Q := fun _ => True) ?_ fun consumed _ => ?_
      · refine Prog.Effects.bind (Q := fun _ => True) ?_ fun quotas _ => consumeEach_effects hx _ _
        exact (Prog.effects_query (Q := fun _ => True) trivial).bind fun rows _ => hx.inSomeOrder rows
      · refine (forward_effects hx _ _).bind fun result _ => ?_
        cases result with
        | error e =>
          dsimp only
          split
          · exact (rollbackQuota_effects hx _).bind fun _ _ => trivial
          · trivial
        | ok result => exact hx.now.bind fun timestamp _ => trivial

theorem presents_iff {r : IncomingRequest × Option String} : presents cfg db k r = true ↔
    ∃ raw, r.2 = some raw ∧ ∃ key ∈ db.apiKeys.rows, key.id = k ∧ key.keyHash = cfg.hashToken raw := by
  simp [presents, Option.any_eq_true]

theorem callProg_sees {r : IncomingRequest × Option String} (h : presents cfg db k r = true) :
    (callProg cfg r).Effects (keyIsolation k).Sees db fun _ => True := by
  obtain ⟨raw, hraw, key, hkey, hid, hhash⟩ := presents_iff.1 h
  refine handle_effects (sees_call db k).now _ _ fun raw' hraw' key' hkey' hhash' => ?_
  have hsame : raw' = raw := Option.some.inj (hraw'.symm.trans hraw)
  rw [Table.eq_of_clash hkey' hkey (ApiKey.clash_iff.2 (.inr (by rw [hhash', hhash, hsame]))), hid]
  exact sees_call db k

theorem callProg_spares {r : IncomingRequest × Option String} (h : ¬ presents cfg db k r = true) :
    (callProg cfg r).Effects (keyIsolation k).Spares db fun _ => True := by
  refine handle_effects readClock_leavesKeys.spares _ _ fun raw hraw key hkey hhash => ?_
  exact spares_call db fun hid => h (presents_iff.2 ⟨raw, hraw, key, hkey, hid, hhash⟩)

end

/-! ### Whole runs -/

/-- For every interleaving of the steps of any number of calls, on one clock that does not go back:
a call with the API key `k` is where it would be if the calls with other keys, or none, had taken no
step. So its answer, its place in the rate limit and its quotas do not depend on them. -/
theorem keys_isolated (cfg : GatewayConfig) (k : Uuid) (s : GatewaySystem)
    (es : List (Event platformTables.backend (IncomingRequest × Option String)))
    (hs : s.threads = []) (hm : Meets (gatewayNext cfg) (System.Timely (keyIsolation k)) s es) (i : Nat)
    (t : Thread platformTables.backend (IncomingRequest × Option String) GatewayOutcome)
    (hi : (run (gatewayNext cfg) s es).threads[i]? = some t) (hk : presents cfg s.db k t.req = true) :
    (run (gatewayNext cfg) s
      (System.restrict (callProg cfg) (fun r => presents cfg s.db k r = true) s es)).threads[i]? =
        some t := by
  have hstart : System.Isolated (keyIsolation k) (fun r => presents cfg s.db k r = true) s s := by
    refine ⟨rfl, ⟨le_refl _, fun _ _ => rfl, fun _ => ⟨rfl, rfl, rfl⟩⟩, rfl, fun j u u' hj => ?_⟩
    rw [hs] at hj
    cases hj
  obtain ⟨t', hi', htwin⟩ := (hstart.run (fun r => callProg_sees) (fun r => callProg_spares) hm).twin hi
  rw [hi']
  obtain ⟨r, ph⟩ := t
  obtain ⟨r', ph'⟩ := t'
  have hreq : r' = r := htwin.req
  have hphase : ph' = ph := (htwin.sees hk).1
  rw [hreq, hphase]

/-- Two keys of one API under a quota of one request a day each. -/
def sampleTwoKeysDb : PlatformDb where
  __ := sampleDailyDb
  apiKeys := ⟨[⟨43, 41, 5, "key", "atp_00000000", "0000", "#secret", none, none, none, none⟩,
    ⟨45, 41, 5, "other", "atp_11111111", "1111", "#other", none, none, none, none⟩], by decide⟩
  keyRefers := by decide
  usageRefers := by decide

/-- A call with each key, and another one with the first key; their steps alternate. -/
def twoKeys : List (Event platformTables.backend (IncomingRequest × Option String)) :=
  [.start (sampleIncoming, some "secret"), .start (sampleIncoming, some "other"),
    .start (sampleIncoming, some "secret")] ++
  (List.replicate 25
    [.step 0 (sampleGatewayEnv 1), .step 1 (sampleGatewayEnv 1),
      .step 2 (sampleGatewayEnv 1)]).flatten

theorem keys_isolated_two :
    (run (gatewayNext sampleGatewayConfig) (System.init sampleTwoKeysDb sampleGatewayWorld)
    (System.restrict (callProg sampleGatewayConfig)
      (fun r => presents sampleGatewayConfig sampleTwoKeysDb 43 r = true)
      (System.init sampleTwoKeysDb sampleGatewayWorld) twoKeys)).threads[0]? =
    (run (gatewayNext sampleGatewayConfig) (System.init sampleTwoKeysDb sampleGatewayWorld)
        twoKeys).threads[0]? := by
  have hlen : 0 <
      (run (gatewayNext sampleGatewayConfig) (System.init sampleTwoKeysDb sampleGatewayWorld)
          twoKeys).threads.length := by
    decide +kernel
  have hfirst :
      ((run (gatewayNext sampleGatewayConfig) (System.init sampleTwoKeysDb sampleGatewayWorld)
        twoKeys).threads[0]?.all
      fun t => presents sampleGatewayConfig sampleTwoKeysDb 43 t.req) = true := by decide +kernel
  rw [List.getElem?_eq_getElem hlen, Option.all_some] at hfirst
  rw [List.getElem?_eq_getElem hlen]
  exact keys_isolated sampleGatewayConfig 43 (System.init sampleTwoKeysDb sampleGatewayWorld)
    twoKeys rfl (by decide +kernel) 0 _
    (List.getElem?_eq_getElem hlen) hfirst

end TrafficPlatform
