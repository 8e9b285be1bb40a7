import TrafficPlatform.Kit.Calendar
import TrafficPlatform.Kit.Ends
import TrafficPlatform.Kit.Run
import TrafficPlatform.Site

/-!
# Request quotas

`app/services/quota.py`: a Redis counter for each key, period and bucket (the UTC day or month), which
the first `consume` of a bucket creates with the rest of the period as its time to live. A daily
period ends at 23:59:59 for the code and the rest is cut to whole seconds, so the counter can expire
before the bucket ends; a `consume` after that starts the count again. The cap holds over a bucket
exactly when that does not happen or does not matter (`quota_cap_iff`).
-/

namespace TrafficPlatform
open Kit

inductive QuotaPeriod
  | daily
  | monthly
deriving DecidableEq, Repr

namespace QuotaPeriod

/-- The value of the enumeration member. -/
def name : QuotaPeriod → String
  | daily => "daily"
  | monthly => "monthly"

end QuotaPeriod

/-- A day, in microseconds. -/
def dayLength : Time := 86400 * second

/-- The UTC date of a time. -/
def Time.date (t : Time) : Date := .ofOrdinal (t / dayLength)

/-- A time of day on a date. -/
def Time.at (d : Date) (hour minute sec : Nat) : Time :=
  d.toOrdinal * dayLength + (hour * 3600 + minute * 60 + sec) * second

structure QuotaCheck where
  period : QuotaPeriod
  limit : Int
  used : Int
deriving DecidableEq, Repr

def QuotaCheck.exceeded (c : QuotaCheck) : Bool := c.used > c.limit

/-- The end of the period that `now` lies in, as the code has it. -/
def periodEnd (period : QuotaPeriod) (now : Time) : Time :=
  match period with
  | .daily => .at now.date 23 59 59
  | .monthly => .at now.date.nextMonth 0 0 0

/-- The bucket of `now` (`%Y-%m-%d` or `%Y-%m`) and the seconds left in it, cut to an integer. -/
def bucketAndTtl (period : QuotaPeriod) (now : Time) : List KeyPart × Nat :=
  let date := Time.date now
  let bucket : List KeyPart := match period with
    | .daily => [.number date.year, .number date.month, .number date.day]
    | .monthly => [.number date.year, .number date.month]
  (bucket, max 1 (((periodEnd period now : Int) - now).tdiv second).toNat)

/-- `quota:{api_key_id}:{period}:{bucket}`. -/
def quotaKey (apiKeyId : Uuid) (period : QuotaPeriod) (bucket : List KeyPart) : RedisKey :=
  [.text "quota", .uuid apiKeyId, .text period.name] ++ bucket

namespace QuotaEnforcer

variable {T : Tables}

/-- Atomically increment and return usage. -/
def consume (apiKeyId : Uuid) (period : QuotaPeriod) (limit : Int) : Prog T.backend QuotaCheck := do
  let time ← now
  let (bucket, ttl) := bucketAndTtl period time
  let key := quotaKey apiKeyId period bucket
  let used ← redisIncr key
  if used = 1 then redisExpire key ttl
  return { period, limit, used }

/-- Give back a consumed unit. -/
def rollback (apiKeyId : Uuid) (period : QuotaPeriod) : Prog T.backend Unit := do
  let time ← now
  let (bucket, _) := bucketAndTtl period time
  let _ ← redisDecr (quotaKey apiKeyId period bucket)
  return ()

end QuotaEnforcer

/-! ### Periods -/

namespace QuotaPeriod

/-- The two times lie in one UTC day, or in one month. -/
def Same : QuotaPeriod → Time → Time → Prop
  | daily, t, t' => t / dayLength = t' / dayLength
  | monthly, t, t' => t.date.year = t'.date.year ∧ t.date.month = t'.date.month

instance (p : QuotaPeriod) : DecidableRel p.Same := fun t t' =>
  match p with
  | daily => inferInstanceAs (Decidable (t / dayLength = t' / dayLength))
  | monthly => inferInstanceAs (Decidable (t.date.year = t'.date.year ∧ t.date.month = t'.date.month))

theorem name_injective {p p' : QuotaPeriod} (h : p.name = p'.name) : p = p' := by
  cases p <;> cases p' <;> first | rfl | exact absurd h (by decide)

theorem bucket_eq_iff (p : QuotaPeriod) (t t' : Time) :
    (bucketAndTtl p t).1 = (bucketAndTtl p t').1 ↔ p.Same t t' := by
  cases p with
  | daily =>
    simp only [bucketAndTtl, List.cons.injEq, KeyPart.number.injEq, and_true, Same,
      ← Date.ext_iff', Time.date]
    exact ⟨Date.ofOrdinal_injective, fun h => by rw [h]⟩
  | monthly => simp [bucketAndTtl, Same]

theorem quotaKey_eq_iff {k k' : Uuid} {p p' : QuotaPeriod} {t t' : Time} :
    quotaKey k p (bucketAndTtl p t).1 = quotaKey k' p' (bucketAndTtl p' t').1 ↔ k = k' ∧ p = p' ∧
        p.Same t t' := by
  simp only [quotaKey, List.cons_append, List.nil_append, List.cons.injEq, true_and, KeyPart.uuid.injEq,
    KeyPart.text.injEq]
  constructor
  · rintro ⟨rfl, hp, hb⟩
    obtain rfl := name_injective hp
    exact ⟨rfl, rfl, (bucket_eq_iff p t t').1 hb⟩
  · rintro ⟨rfl, rfl, h⟩
    exact ⟨rfl, rfl, (bucket_eq_iff p t t').2 h⟩

end QuotaPeriod

/-- The counter of a key for the period that `t` lies in. -/
def counterKey (t : Time) (apiKeyId : Uuid) (period : QuotaPeriod) : RedisKey :=
  quotaKey apiKeyId period (bucketAndTtl period t).1

theorem counterKey_eq_iff {k k' : Uuid} {p p' : QuotaPeriod} {t : Time} :
    counterKey t k p = counterKey t k' p' ↔ k = k' ∧ p = p' := by
  unfold counterKey
  rw [QuotaPeriod.quotaKey_eq_iff]
  constructor
  · exact fun h => ⟨h.1, h.2.1⟩
  · rintro ⟨rfl, rfl⟩
    refine ⟨rfl, rfl, ?_⟩
    cases p <;> simp [QuotaPeriod.Same]

/-! ### A call alone -/

section
variable {T : Tables} {s s' : Session T.backend} {x : RedisKey}

/-- The clock when the next command of the session runs. -/
def nowAt (s : Session T.backend) : Time := max s.world.clock (s.envs 0).time

/-- The clock when the command after that one runs. -/
def nextAt (s : Session T.backend) : Time := max (nowAt s) (s.envs 1).time

/-- `s'` comes after `s` in a request that writes no rows in between. -/
structure Later (s s' : Session T.backend) : Prop where
  db : s'.db = s.db
  dirty : s'.dirty = s.dirty
  clock : s.world.clock ≤ s'.world.clock
  envs : ∃ n, ∀ m, s'.envs m = s.envs (m + n)

theorem Later.trans {s'' : Session T.backend} (h : Later s s') (h' : Later s' s'') : Later s s'' := by
  obtain ⟨n, hn⟩ := h.envs
  obtain ⟨n', hn'⟩ := h'.envs
  refine ⟨h'.db.trans h.db, h'.dirty.trans h.dirty, Nat.le_trans h.clock h'.clock, n' + n, fun m => ?_⟩
  rw [hn', hn, Nat.add_assoc]

theorem Later.step {w : World T.Outside} (h : s.world.clock ≤ w.clock) : Later s (s.step w) :=
  ⟨rfl, rfl, h, 1, fun _ => rfl⟩

/-- A unit was taken from the counter `x`, which counts `used` with it. The counter can have expired
again before it got its new expiry. -/
structure Takes (s s' : Session T.backend) (x : RedisKey) (used : Int) : Prop where
  later : Later s s'
  outside : s'.world.outside = s.world.outside
  clock : s'.world.clock = nextAt s ∨ s'.world.clock = max (nextAt s) (s.envs 2).time
  used_eq : used = (s.world.redis.get (nextAt s) x).getD 0 + 1
  others : ∀ y, y ≠ x → s'.world.redis y = s.world.redis y
  entry : ∀ e, s'.world.redis x = some e →
    e.value = used ∧ (used ≠ 1 → e.expiry = (s.world.redis.live (nextAt s) x).bind (·.expiry))
  gone : s'.world.redis x = none → used = 1

/-- A unit was given back to the counter `x`. -/
structure Returns (s s' : Session T.backend) (x : RedisKey) : Prop where
  later : Later s s'
  outside : s'.world.outside = s.world.outside
  clock : s'.world.clock = nextAt s
  others : ∀ y, y ≠ x → s'.world.redis y = s.world.redis y
  entry : s'.world.redis x =
    some ⟨(s.world.redis.get (nextAt s) x).getD 0 - 1,
      (s.world.redis.live (nextAt s) x).bind (·.expiry)⟩

theorem QuotaEnforcer.consume_ends (apiKeyId : Uuid) (period : QuotaPeriod) (limit : Int)
    (s : Session T.backend) :
    (QuotaEnforcer.consume apiKeyId period limit).Ends
      (fun check s' => check = ⟨period, limit, check.used⟩ ∧
      Takes s s' (counterKey (nowAt s) apiKeyId period) check.used) (fun _ _ => False) s := by
  unfold QuotaEnforcer.consume
  refine Prog.Ends.bind
    (Q := fun time s₁ => time = nowAt s ∧ s₁ = s.step { s.world with clock := nowAt s })
    (Prog.ends_ask ⟨rfl, rfl⟩) ?_
  rintro _ _ ⟨rfl, rfl⟩
  dsimp only
  rw [show quotaKey apiKeyId period (bucketAndTtl period (nowAt s)).1 =
    counterKey (nowAt s) apiKeyId period from rfl]
  set x := counterKey (nowAt s) apiKeyId period
  set used := (s.world.redis.get (nextAt s) x).getD 0 + 1 with hused
  set w : World T.Outside :=
    { s.world with clock := nextAt s, redis := s.world.redis.set (nextAt s) x used }
  set s₂ : Session T.backend := { s with world := w, envs := fun n => s.envs (n + 2) } with hs₂
  have hlater : Later s s₂ :=
    ⟨rfl, rfl, Nat.le_trans (Nat.le_max_left _ (s.envs 0).time) (Nat.le_max_left _ _), 2, fun _ => rfl⟩
  refine Prog.Ends.bind (Q := fun n s' => n = used ∧ s' = s₂) (Prog.ends_ask ⟨rfl, rfl⟩) ?_
  rintro _ _ ⟨rfl, rfl⟩
  by_cases hnew : used = 1
  · rw [if_pos hnew]
    -- the counter may be a live one at 0, which can expire before its `EXPIRE`
    refine Prog.Ends.bind (Q := fun _ s' => Takes s s' x used) (Prog.ends_ask ?_) ?_
    · refine ⟨hlater.trans (.step (Nat.le_max_left _ _)), rfl, .inr rfl, rfl,
        fun y hy => ?_, fun e he => ?_,
        fun _ => hnew⟩
      · exact (Store.expire_of_ne hy _).trans (Store.set_of_ne hy _)
      · have he : ((s.world.redis.set (nextAt s) x used).expire _ x _) x = some e := he
        rw [Store.expire_self] at he
        obtain ⟨e', he', rfl⟩ := Option.map_eq_some_iff.1 he
        have hmem := Store.eq_of_live he'
        rw [Store.set_self] at hmem
        cases hmem
        exact ⟨rfl, fun h => absurd hnew h⟩
    · exact fun _ _ h => ⟨rfl, h⟩
  · rw [if_neg hnew]
    refine Prog.ends_ret
      ⟨rfl, hlater, rfl, .inl rfl, rfl,
        fun y hy => Store.set_of_ne hy _, fun e he => ?_, fun he => ?_⟩
    · have he : (s.world.redis.set (nextAt s) x used) x = some e := he
      rw [Store.set_self] at he
      cases he
      exact ⟨rfl, fun _ => rfl⟩
    · have he : (s.world.redis.set (nextAt s) x used) x = none := he
      rw [Store.set_self] at he
      cases he

theorem QuotaEnforcer.rollback_ends (apiKeyId : Uuid) (period : QuotaPeriod) (s : Session T.backend) :
    (QuotaEnforcer.rollback apiKeyId period).Ends
      (fun _ s' => Returns s s' (counterKey (nowAt s) apiKeyId period))
      (fun _ _ => False) s := by
  unfold QuotaEnforcer.rollback
  refine Prog.Ends.bind
    (Q := fun time s₁ => time = nowAt s ∧ s₁ = s.step { s.world with clock := nowAt s })
    (Prog.ends_ask ⟨rfl, rfl⟩) ?_
  rintro _ _ ⟨rfl, rfl⟩
  dsimp only
  rw [show quotaKey apiKeyId period (bucketAndTtl period (nowAt s)).1 =
    counterKey (nowAt s) apiKeyId period from rfl]
  set x := counterKey (nowAt s) apiKeyId period
  refine Prog.Ends.bind (Q := fun _ s' => Returns s s' x) (Prog.ends_ask ?_)
    fun _ _ h => Prog.ends_ret h
  refine ⟨⟨rfl, rfl, ?_, 2, fun _ => rfl⟩, rfl, rfl, fun y hy => Store.set_of_ne hy _, Store.set_self _⟩
  exact Nat.le_trans (Nat.le_max_left _ (s.envs 0).time) (Nat.le_max_left _ _)

end

/-! ### One `consume` -/

/-- Redis alone. -/
abbrev redisTables : Tables where
  Outside := Unit
  Input := Unit
  Db := Unit
  Op := Empty
  Key := Empty
  apply o := o.elim
  check o := o.elim
  keys o := o.elim

/-- A call of `consume` at a clock reading. -/
structure QuotaCall where
  apiKeyId : Uuid
  period : QuotaPeriod
  limit : Int
  time : Time
deriving DecidableEq, Repr

/-- The key of the counter of a call. -/
def QuotaCall.key (c : QuotaCall) : RedisKey :=
  quotaKey c.apiKeyId c.period (bucketAndTtl c.period c.time).1

/-- The world after some calls, and what they returned. -/
structure QuotaState where
  world : World Unit
  log : List (QuotaCall × QuotaCheck)

/-- Every command of the call reads the clock at the time of the call. -/
def QuotaState.consume (s : QuotaState) (c : QuotaCall) : QuotaState :=
  let out := scope (QuotaEnforcer.consume (T := redisTables) c.apiKeyId c.period c.limit)
    (fun _ => ⟨c.time, "", 0, ()⟩) ⟨(), s.world⟩
  ⟨out.2.world, s.log ++ match out.1 with
    | .ok check => [(c, check)]
    | .error _ => []⟩

/-- The time past which a counter that a call at `time` creates is dropped. -/
def counterLife (period : QuotaPeriod) (time : Time) : Time :=
  time + (bucketAndTtl period time).2 * second

/-- The store holds the counter `n` under the key. -/
def Tracks (w : World Unit) (key : RedisKey) : Option (Counter Time) → Prop
  | none => w.redis key = none
  | some n => w.redis key = some ⟨n.used, some n.expiry⟩ ∧ 0 < n.used

namespace QuotaState

variable {s : QuotaState} {c : QuotaCall} {key : RedisKey} {n : Option (Counter Time)}

theorem consume_eq (s : QuotaState) (c : QuotaCall) (hc : s.world.clock ≤ c.time) :
    s.consume c =
      let used := (s.world.redis.get c.time c.key).getD 0 + 1
      let redis := s.world.redis.set c.time c.key used
      ⟨{ s.world with
          clock := c.time
          redis := if used = 1 then redis.expire c.time c.key (counterLife c.period c.time)
            else redis },
        s.log ++ [(c, ⟨c.period, c.limit, used⟩)]⟩ := by
  by_cases hu : (s.world.redis.get c.time c.key).getD 0 + 1 = 1 <;> simp only [QuotaCall.key] at hu
  all_goals
    simp [consume, scope, Prog.commit, QuotaEnforcer.consume, now, redisIncr, redisExpire,
      Prog.bind_assoc', Prog.eval_ask, World.readClock, World.incr, World.expire,
      Nat.max_eq_right hc, QuotaCall.key, counterLife, Prog.eval, flushAll, hu]

theorem consume_clock (hc : s.world.clock ≤ c.time) : (s.consume c).world.clock = c.time := by
  rw [consume_eq s c hc]

theorem consume_of_ne (hc : s.world.clock ≤ c.time) (h : key ≠ c.key) :
    (s.consume c).world.redis key = s.world.redis key := by
  rw [consume_eq s c hc]
  dsimp only
  split
  · rw [Store.expire_of_ne h, Store.set_of_ne h]
  · rw [Store.set_of_ne h]

theorem consume_of_dead (hc : s.world.clock ≤ c.time) (h : s.world.redis.live c.time c.key = none) :
    Tracks (s.consume c).world c.key (some ⟨1, counterLife c.period c.time⟩) ∧
      (s.consume c).log = s.log ++ [(c, ⟨c.period, c.limit, 1⟩)] := by
  have hget : s.world.redis.get c.time c.key = none := by simp [Store.get, h]
  rw [consume_eq s c hc, hget]
  exact ⟨⟨Store.expire_set_of_dead h _ _, Nat.one_pos⟩, rfl⟩

theorem consume_of_live {n : Counter Time} (hc : s.world.clock ≤ c.time)
    (h : Tracks s.world c.key (some n))
    (hle : c.time ≤ n.expiry) : Tracks (s.consume c).world c.key (some ⟨n.used + 1, n.expiry⟩) ∧
      (s.consume c).log = s.log ++ [(c, ⟨c.period, c.limit, ((n.used + 1 : Nat) : Int)⟩)] := by
  obtain ⟨hentry, hpos⟩ := h
  have hlive : s.world.redis.live c.time c.key = some ⟨n.used, some n.expiry⟩ :=
    Store.live_some hentry (by simpa using hle)
  have hget : s.world.redis.get c.time c.key = some (n.used : Int) := by simp [Store.get, hlive]
  have hne : ¬ (n.used : Int) + 1 = 1 := by omega
  rw [consume_eq s c hc, hget]
  simp only [Option.getD_some, hne, if_false]
  exact ⟨⟨Store.set_of_live hlive _, Nat.succ_pos _⟩, rfl⟩

theorem consume_tracks (hc : s.world.clock ≤ c.time) (h : Tracks s.world c.key n) :
    Tracks (s.consume c).world c.key (some (Counter.hit (counterLife c.period) c.time n)) ∧
      (s.consume c).log =
        s.log ++ [(c,
            ⟨c.period, c.limit, ((Counter.hit (counterLife c.period) c.time n).used : Int)⟩)] := by
  cases n with
  | none => exact consume_of_dead hc (Store.live_of_none h)
  | some n =>
    by_cases hle : c.time ≤ n.expiry
    · simp only [Counter.hit, if_pos hle]
      exact consume_of_live hc h hle
    · simp only [Counter.hit, if_neg hle]
      exact consume_of_dead hc (Store.live_expired h.1 rfl (Nat.lt_of_not_le hle))

theorem consume_log (s : QuotaState) (hc : s.world.clock ≤ c.time) :
    ∃ check, (s.consume c).log = s.log ++ [(c, check)] := by
  rw [consume_eq s c hc]
  exact ⟨_, rfl⟩

end QuotaState

/-! ### A whole period -/

/-- A call for the API key and period, in the same day or month as `t₀`. -/
def QuotaCall.In (k : Uuid) (period : QuotaPeriod) (t₀ : Time) (c : QuotaCall) : Prop :=
  c.apiKeyId = k ∧ c.period = period ∧ period.Same c.time t₀

instance (k : Uuid) (period : QuotaPeriod) (t₀ : Time) :
    DecidablePred (QuotaCall.In k period t₀) := fun c =>
  inferInstanceAs (Decidable (c.apiKeyId = k ∧ c.period = period ∧ period.Same c.time t₀))

/-- How many of these calls returned `exceeded = False`. -/
def grantedIn (k : Uuid) (period : QuotaPeriod) (t₀ : Time)
    (log : List (QuotaCall × QuotaCheck)) : Nat :=
  log.countP fun x => decide (x.1.In k period t₀) && !x.2.exceeded

section
variable {k : Uuid} {period : QuotaPeriod} {t₀ : Time} {limit : Nat} {c : QuotaCall}

theorem QuotaCall.in_iff : c.In k period t₀ ↔ quotaKey k period (bucketAndTtl period t₀).1 = c.key := by
  rw [eq_comm, QuotaCall.key, QuotaPeriod.quotaKey_eq_iff, QuotaCall.In]
  constructor
  · rintro ⟨hk, rfl, h⟩
    exact ⟨hk, rfl, h⟩
  · rintro ⟨hk, rfl, h⟩
    exact ⟨hk, rfl, h⟩

theorem grantedIn_snoc (log : List (QuotaCall × QuotaCheck)) (c : QuotaCall) (check : QuotaCheck) :
    grantedIn k period t₀ (log ++ [(c, check)]) = grantedIn k period t₀ log +
      if c.In k period t₀ ∧ check.exceeded = false then 1 else 0 := by
  simp [grantedIn, List.countP_append, List.countP_cons]

theorem not_exceeded_iff {used : Nat} : (QuotaCheck.mk period limit used).exceeded = false ↔
    used ≤ limit := by
  simp [QuotaCheck.exceeded]

/-- The calls of a run that are in the period hit one counter. -/
theorem grantedIn_run (calls : List QuotaCall) (s : QuotaState) (n : Option (Counter Time))
    (hlimit : ∀ c ∈ calls, c.In k period t₀ → c.limit = limit)
    (hsorted : calls.Pairwise fun c c' => c.time ≤ c'.time)
    (hclock : ∀ c ∈ calls, s.world.clock ≤ c.time)
    (h : Tracks s.world (quotaKey k period (bucketAndTtl period t₀).1) n) :
    grantedIn k period t₀ (run QuotaState.consume s calls).log = grantedIn k period t₀ s.log +
      Counter.granted (counterLife period) limit n
          ((calls.filter (·.In k period t₀)).map (·.time)) := by
  induction calls generalizing s n with
  | nil => simp [run, Counter.granted, Counter.hits]
  | cons c cs ih =>
    have hc := hclock c List.mem_cons_self
    have hrest :=
      fun {s n} => ih s n (fun c hc => hlimit c (List.mem_cons_of_mem _ hc))
        (List.pairwise_cons.1 hsorted).2
    have hclock' : ∀ c' ∈ cs, (s.consume c).world.clock ≤ c'.time := fun c' hc' => by
      rw [QuotaState.consume_clock hc]
      exact (List.pairwise_cons.1 hsorted).1 c' hc'
    by_cases hin : c.In k period t₀
    · have hkey := QuotaCall.in_iff.1 hin
      rw [hkey] at h
      obtain ⟨ht, hlog⟩ := QuotaState.consume_tracks hc h
      rw [run, hrest hclock' (hkey ▸ ht), hlog, List.filter_cons_of_pos (by simpa using hin),
        List.map_cons,
        Counter.granted_cons, grantedIn_snoc, hlimit c List.mem_cons_self hin, hin.2.1]
      simp only [hin, not_exceeded_iff, true_and]
      omega
    · have hkey : quotaKey k period (bucketAndTtl period t₀).1 ≠ c.key :=
        fun he => hin (QuotaCall.in_iff.2 he)
      obtain ⟨check, hlog⟩ := QuotaState.consume_log s hc
      have ht : Tracks (s.consume c).world (quotaKey k period (bucketAndTtl period t₀).1) n := by
        unfold Tracks
        rw [QuotaState.consume_of_ne hc hkey]
        exact h
      rw [run, hrest hclock' ht, hlog, List.filter_cons_of_neg (by simpa using hin), grantedIn_snoc]
      simp [hin]

/-- Over one day or month, at most `limit` of the calls for an API key return `exceeded = False` if and
only if there are no more calls than that, or none of them comes after the time to live that the first
one gave the counter. -/
theorem quota_cap_iff (k : Uuid) (period : QuotaPeriod) (t₀ : Time) (limit : Nat) (w : World Unit)
    (calls : List QuotaCall) (hl : 0 < limit) (hlimit : ∀ c ∈ calls, c.In k period t₀ → c.limit = limit)
    (hsorted : calls.Pairwise fun c c' => c.time ≤ c'.time) (hclock : ∀ c ∈ calls, w.clock ≤ c.time)
    (hnew : w.redis (quotaKey k period (bucketAndTtl period t₀).1) = none) :
    grantedIn k period t₀ (run QuotaState.consume ⟨w, []⟩ calls).log ≤ limit ↔
      (calls.filter (·.In k period t₀)).length ≤ limit ∨ ∀ first rest,
        calls.filter (·.In k period t₀) = first :: rest →
        ∀ c ∈ rest, c.time ≤ counterLife period first.time := by
  rw [grantedIn_run calls ⟨w, []⟩ none hlimit hsorted hclock hnew]
  simp only [grantedIn, List.countP_nil, Nat.zero_add]
  rw [Counter.granted_le_iff hl, List.length_map]
  refine or_congr_right ?_
  cases calls.filter (·.In k period t₀) with
  | nil => simp
  | cons first rest => simp

/-- Two calls of a counter: the second comes after the expiry that the first one sets, in the last
second of the day. -/
def lateCalls : List QuotaCall :=
  [⟨7, .daily, 1, 739647 * dayLength + 36000 * second + second / 2⟩,
    ⟨7, .daily, 1, 739647 * dayLength + 86399 * second⟩]

def quotaWorld : World Unit := ⟨0, 0, Store.empty, ()⟩

/-- The condition decides the run of `lateCalls`. -/
theorem quota_cap_iff_late :
    grantedIn 7 .daily (739647 * dayLength)
      (run QuotaState.consume ⟨quotaWorld, []⟩ lateCalls).log ≤ 1 ↔
      (lateCalls.filter (·.In 7 .daily (739647 * dayLength))).length ≤ 1 ∨ ∀ first rest,
        lateCalls.filter (·.In 7 .daily (739647 * dayLength)) = first :: rest →
          ∀ c ∈ rest, c.time ≤ counterLife .daily first.time :=
  quota_cap_iff 7 .daily (739647 * dayLength) 1 quotaWorld lateCalls (by decide) (by decide)
    (by decide) (by decide) rfl

/-- A cap of one request a day lets two through. -/
theorem quota_cap_exceeded : ¬ ∀ (k : Uuid) (period : QuotaPeriod) (t₀ : Time) (limit : Nat)
    (w : World Unit) (calls : List QuotaCall),
    0 < limit → (∀ c ∈ calls, c.In k period t₀ → c.limit = limit) →
    (calls.Pairwise fun c c' => c.time ≤ c'.time) → (∀ c ∈ calls, w.clock ≤ c.time) →
    w.redis (quotaKey k period (bucketAndTtl period t₀).1) = none →
    grantedIn k period t₀ (run QuotaState.consume ⟨w, []⟩ calls).log ≤ limit := by
  intro h
  have hle := h 7 .daily (739647 * dayLength) 1 quotaWorld lateCalls (by decide) (by decide)
    (by decide) (by decide) rfl
  have htwo : grantedIn 7 .daily (739647 * dayLength)
      (run QuotaState.consume ⟨quotaWorld, []⟩ lateCalls).log = 2 := by
    decide +kernel
  omega

/-! ### Away from the end of the period -/

theorem Time.at_date_congr {t t' : Time} (h : QuotaPeriod.daily.Same t t') (hour minute sec : Nat) :
    Time.at t.date hour minute sec = Time.at t'.date hour minute sec := by
  unfold Time.date
  rw [show t / dayLength = t' / dayLength from h]

theorem Date.nextMonth_congr {d d' : Date} (hy : d.year = d'.year) (hm : d.month = d'.month) :
    d.nextMonth = d'.nextMonth := by
  unfold Date.nextMonth
  simp only [hy, hm]

theorem periodEnd_congr {t t' : Time} (h : period.Same t t') :
    periodEnd period t = periodEnd period t' := by
  cases period with
  | daily => exact Time.at_date_congr h 23 59 59
  | monthly => simp only [periodEnd, Date.nextMonth_congr h.1 h.2]

/-- A counter lives until less than a second before the end of the period. -/
theorem periodEnd_lt_counterLife (period : QuotaPeriod) (t : Time) :
    periodEnd period t < counterLife period t + second := by
  have hs : 0 < second := by decide
  rcases Nat.le_total (periodEnd period t) t with h | h
  · simp only [counterLife]
    exact Nat.lt_of_le_of_lt (Nat.le_trans h (Nat.le_add_right _ _)) (Nat.lt_add_of_pos_right hs)
  · have hdiv : (((periodEnd period t : Int) - t).tdiv second).toNat =
        (periodEnd period t - t) / second := by
      rw [← Int.ofNat_sub h]
      rfl
    have hlt := Nat.lt_div_mul_add (a := periodEnd period t - t) hs
    have hle : (periodEnd period t - t) / second * second ≤ (bucketAndTtl period t).2 * second := by
      refine Nat.mul_le_mul_right _ ?_
      rw [← hdiv]
      exact Nat.le_max_right _ _
    calc periodEnd period t = t + (periodEnd period t - t) := (Nat.add_sub_cancel' h).symm
      _ < t + ((periodEnd period t - t) / second * second + second) := Nat.add_lt_add_left hlt t
      _ ≤ t + ((bucketAndTtl period t).2 * second + second) :=
        Nat.add_le_add_left (Nat.add_le_add_right hle _) t
      _ = counterLife period t + second := (Nat.add_assoc _ _ _).symm

/-- The cap holds over a day or month in whose last second, as the code counts it, no call is made. -/
theorem quota_cap (k : Uuid) (period : QuotaPeriod) (t₀ : Time) (limit : Nat) (w : World Unit)
    (calls : List QuotaCall) (hl : 0 < limit) (hlimit : ∀ c ∈ calls, c.In k period t₀ → c.limit = limit)
    (hsorted : calls.Pairwise fun c c' => c.time ≤ c'.time) (hclock : ∀ c ∈ calls, w.clock ≤ c.time)
    (hnew : w.redis (quotaKey k period (bucketAndTtl period t₀).1) = none)
    (hmargin : ∀ c ∈ calls, c.In k period t₀ → c.time + second ≤ periodEnd period t₀) :
    grantedIn k period t₀ (run QuotaState.consume ⟨w, []⟩ calls).log ≤ limit := by
  rw [grantedIn_run calls ⟨w, []⟩ none hlimit hsorted hclock hnew]
  simp only [grantedIn, List.countP_nil, Nat.zero_add]
  refine (Counter.granted_le_iff hl).2 (.inr fun first rest he t ht => ?_)
  have hmem : ∀ t' ∈ first :: rest, ∃ c ∈ calls, c.In k period t₀ ∧ c.time = t' := by
    intro t' ht'
    rw [← he] at ht'
    obtain ⟨c, hc, rfl⟩ := List.mem_map.1 ht'
    exact ⟨c, (List.mem_filter.1 hc).1, by simpa using (List.mem_filter.1 hc).2, rfl⟩
  obtain ⟨c, hc, hin, rfl⟩ := hmem t (List.mem_cons_of_mem _ ht)
  obtain ⟨f, hf, hfin, rfl⟩ := hmem first List.mem_cons_self
  have hend := periodEnd_lt_counterLife period f.time
  rw [periodEnd_congr hfin.2.2] at hend
  exact Nat.le_of_lt (Nat.lt_of_add_lt_add_right (Nat.lt_of_le_of_lt (hmargin c hc hin) hend))

end

end TrafficPlatform
