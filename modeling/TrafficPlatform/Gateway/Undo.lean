import TrafficPlatform.Gateway.Effects
import TrafficPlatform.Kit.Refund
import Mathlib.Data.List.Rotate

/-!
# What a failed call gives back

A call that raises after it has taken units of quotas gives them back: to the counters of the
periods that lie at the times of the rollback, which need not be those the units were taken from,
and not at all if its task is cancelled. `callRefunds` reads off the counters before the call and
the clock readings of its steps which units these are, and `failed_call_undone_iff` says when the
call leaves every counter as if it had not been made.
-/

namespace TrafficPlatform
open Kit Gateway GatewayService

/-! ### Clock readings -/

/-- The clock, and what the environment gives the steps from then on. -/
structure Readings where
  clock : Time
  envs : Nat → Env PlatformInput

namespace Readings

/-- After a step that reads the clock. -/
def tick (r : Readings) : Readings := ⟨max r.clock (r.envs 0).time, fun n => r.envs (n + 1)⟩

/-- After a step that does not. -/
def skip (r : Readings) : Readings := ⟨r.clock, fun n => r.envs (n + 1)⟩

theorem clock_le_tick (r : Readings) : r.clock ≤ r.tick.clock := Nat.le_max_left _ _

end Readings

/-- The readings of a session. -/
def readings (s : Session platformTables.backend) : Readings := ⟨s.world.clock, s.envs⟩

/-! ### Units -/

/-- A unit of a quota. -/
structure TakenUnit extends Take RedisKey Time where
  period : QuotaPeriod

/-- The unit that a `consume` takes: it reads the clock, does `INCR`, and `EXPIRE` if the counter is
new. -/
def takenUnit (apiKeyId : Uuid) (period : QuotaPeriod) (r : Readings) : TakenUnit where
  period := period
  taken := counterKey r.tick.clock apiKeyId period
  start := r.tick.tick.clock
  later := r.tick.tick.tick.clock
  life := r.tick.tick.tick.clock + (bucketAndTtl period r.tick.clock).2 * second

/-- The units that are taken of the quotas in their order, up to the first one that the counters
before exceed, whether there is one, and the readings after. -/
def takeUnits (counters : Store RedisKey Int Time) (apiKeyId : Uuid) : List Quota → Readings →
    List TakenUnit × Bool × Readings
  | [], r => ([], false, r)
  | q :: qs, r =>
    let u := takenUnit apiKeyId q.period r
    let before := counters.read u.start u.taken
    let r := if before = 0 then r.tick.tick.tick else r.tick.tick
    if q.maxRequests < before + 1 then ([u], true, r)
    else (u :: (takeUnits counters apiKeyId qs r).1, (takeUnits counters apiKeyId qs r).2)

/-- The units, given back one after the other to the counters of the clock readings, and the
readings after. -/
def giveBack (apiKeyId : Uuid) : List TakenUnit → Readings → List (Refund RedisKey Time) × Readings
  | [], r => ([], r)
  | u :: us, r => (⟨u.toTake, some (counterKey r.tick.clock apiKeyId u.period, r.tick.tick.clock)⟩ ::
      (giveBack apiKeyId us r.tick.tick).1, (giveBack apiKeyId us r.tick.tick).2)

/-- The units of a call that fails with these quotas: it finds one exceeded, or the upstream fails,
or its task is cancelled. -/
def quotaRefunds (counters : Store RedisKey Int Time) (apiKeyId : Uuid) (quotas : List Quota)
    (r : Readings) :
    List (Refund RedisKey Time) × Readings :=
  let (units, exceeded, r) := takeUnits counters apiKeyId quotas r
  if exceeded then giveBack apiKeyId units r
  else if (r.skip.envs 0).reply.upstream = .failure .cancelled then
    (units.map fun u => ⟨u.toTake, none⟩, r.skip.tick)
  else giveBack apiKeyId units r.skip.tick

/-- The readings after the check of the rate limit. -/
def afterLimit (rule : Option RateLimitRule) (r : Readings) : Readings :=
  match rule.map RateLimitRule.algorithm with
  | none => r
  | some .fixedWindow => r.tick
  | some .slidingWindow => r.tick.skip.tick
  | some .tokenBucket => r.tick.tick

/-- The units of a failing call of the key for the API, and the readings at its end. -/
def callRefunds (db : PlatformDb) (counters : Store RedisKey Int Time) (apiKeyId apiId : Uuid)
    (r : Readings) :
    List (Refund RedisKey Time) × Readings :=
  let r := afterLimit (db.rateLimitRules.one fun rule => rule.apiId == apiId) r.tick
  quotaRefunds counters apiKeyId
    ((db.quotas.select fun q => q.apiId == apiId).rotate (r.envs 0).number) r.skip

/-- Every quota counter reads the same as if the call had not been made, and none is negative. -/
def Undone (s s' : Session platformTables.backend) : Prop := ∀ t apiKeyId period,
  s'.world.redis.read s'.world.clock (counterKey t apiKeyId period) =
      s.world.redis.read s'.world.clock (counterKey t apiKeyId period) ∧
    0 ≤ s'.world.redis.read s'.world.clock (counterKey t apiKeyId period)

section
variable {s s' s₁ s₂ : Session platformTables.backend} {k : Uuid} {t t' : Time} {p p' : QuotaPeriod}
  {c : Store RedisKey Int Time}

theorem period_eq_of_counterKey {k k' : Uuid} (h : counterKey t k p = counterKey t' k' p') : p = p' :=
  (QuotaPeriod.quotaKey_eq_iff.1 h).2.1

theorem counters_of_reads {α : Type} {p : Platform α} (h : p.Reads SameCounters)
    (s : Session platformTables.backend) :
    (p.eval s).2.db = s.db ∧ SameCounters s.world (p.eval s).2.world :=
  ⟨(h.eval SameCounters.refl SameCounters.trans s).1,
    (h.eval SameCounters.refl SameCounters.trans s).2.2⟩

/-! ### Taking units -/

/-- Between the two sessions the units were taken, of different periods, of counters that were as in
`c`. -/
structure Took (c : Store RedisKey Int Time) (k : Uuid) (us : List TakenUnit)
    (s s' : Session platformTables.backend) : Prop where
  clock : s.world.clock ≤ s'.world.clock
  units : ∀ u ∈ us, (∃ t, u.taken = counterKey t k u.period) ∧ u.start ≤ s'.world.clock ∧
    (∀ e ∈ s'.world.redis u.taken, e.value = c.read u.start u.taken + 1) ∧
    ∀ t, s'.world.clock ≤ t → ((∃ e ∈ s'.world.redis u.taken, e.Live t) ↔ u.Lives c t)
  others : ∀ x, (∀ u ∈ us, x ≠ u.taken) → s'.world.redis x = s.world.redis x

theorem lives_set {u : Take RedisKey Time} (hne : c.read u.start u.taken ≠ 0) (v : Int) (t : Time) :
    (∃ e ∈ (c.set u.start u.taken v) u.taken, e.Live t) ↔ u.Lives c t := by
  obtain ⟨e, he, hlive, -⟩ := Store.exists_of_read_ne hne
  rw [Take.Lives, if_neg hne, Store.set_self, Store.live_of_live he hlive, he]
  simp [Entry.Live]

theorem lives_expire {u : Take RedisKey Time} (hzero : c.read u.start u.taken = 0) (v : Int)
    (t : Time) :
    (∃ e ∈ ((c.set u.start u.taken v).expire u.later u.taken u.life) u.taken, e.Live t) ↔
        u.Lives c t := by
  rw [Take.Lives, if_pos hzero, Store.expire_self]
  by_cases hlive : ∀ e ∈ c.live u.start u.taken, e.Live u.later
  · rw [Store.live_of_live (Store.set_self v) fun x hx => ?_]
    · rw [and_iff_right hlive]
      simp [Entry.Live]
    · obtain ⟨e, he, hex⟩ := Option.bind_eq_some_iff.1 hx
      exact hlive e he x hex
  · rw [Store.live_of_not_live fun e he hl => ?_]
    · exact iff_of_false (by simp) fun h => hlive h.1
    · rw [Store.set_self] at he
      cases he
      exact hlive fun e' he' x hx => hl x (Option.mem_def.2 (by rw [he', Option.bind_some]; exact hx))

theorem Took.one {u : TakenUnit} (ht : ∃ t, u.taken = counterKey t k u.period)
    (hclock : s.world.clock ≤ u.start) (hstart : u.start ≤ s'.world.clock)
    (hvalue : ∀ e ∈ s'.world.redis u.taken, e.value = c.read u.start u.taken + 1)
    (hlives : ∀ t, (∃ e ∈ s'.world.redis u.taken, e.Live t) ↔ u.Lives c t)
    (hothers : ∀ x, x ≠ u.taken → s'.world.redis x = s.world.redis x) : Took c k [u] s s' where
  clock := hclock.trans hstart
  units u' hu' := by
    obtain rfl := List.mem_singleton.1 hu'
    exact ⟨ht, hstart, hvalue, fun t _ => hlives t⟩
  others x hx := hothers x (hx u List.mem_cons_self)

/-- One unit. -/
theorem consume_took (k : Uuid) (p : QuotaPeriod) (limit : Int) (s : Session platformTables.backend)
    (hc : ∀ t, s.world.redis (counterKey t k p) = c (counterKey t k p)) :
    let u := takenUnit k p (readings s)
    (QuotaEnforcer.consume k p limit).Ends
      (fun check s' => check = ⟨p, limit, c.read u.start u.taken + 1⟩ ∧ Took c k [u] s s' ∧
      readings s' = if c.read u.start u.taken = 0 then (readings s).tick.tick.tick else
        (readings s).tick.tick)
      (fun _ _ => False) s := by
  intro u
  have hsame : s.world.redis u.taken = c u.taken := hc _
  have hread : (s.world.redis.get u.start u.taken).getD 0 = c.read u.start u.taken :=
    Store.read_congr hsame
  have hset : ∀ v, (s.world.redis.set u.start u.taken v) u.taken =
      (c.set u.start u.taken v) u.taken := fun v => by
    rw [Store.set_self, Store.set_self, Store.live_congr hsame]
  have hstart : s.world.clock ≤ u.start :=
    (readings s).clock_le_tick.trans (readings s).tick.clock_le_tick
  have hlater : u.start ≤ u.later := (readings s).tick.tick.clock_le_tick
  unfold QuotaEnforcer.consume
  refine Prog.Ends.bind
    (Q := fun time s₁ => time = (readings s).tick.clock ∧
      s₁ = s.step { s.world with clock := (readings s).tick.clock })
    (Prog.ends_ask ⟨rfl, rfl⟩) ?_
  rintro _ _ ⟨rfl, rfl⟩
  refine Prog.Ends.bind (Q := fun used s₁ => used = c.read u.start u.taken + 1 ∧ s₁ = { s with
    world := { s.world with clock := u.start, redis := s.world.redis.set u.start u.taken used },
      envs := fun n => s.envs (n + 2) })
    (Prog.ends_ask ⟨congrArg (· + 1) hread, rfl⟩) ?_
  rintro used _ ⟨hused, rfl⟩
  by_cases hzero : c.read u.start u.taken = 0
  · rw [if_pos (by omega)]
    refine Prog.Ends.bind (Q := fun _ s₁ => s₁ = { s with
      world := { s.world with
        clock := u.later
        redis := (s.world.redis.set u.start u.taken used).expire u.later u.taken u.life },
      envs := fun n => s.envs (n + 3) }) (Prog.ends_ask rfl) ?_
    rintro _ _ rfl
    have hentry : ((s.world.redis.set u.start u.taken used).expire u.later u.taken u.life) u.taken =
        ((c.set u.start u.taken used).expire u.later u.taken u.life) u.taken := by
      rw [Store.expire_self, Store.expire_self, Store.live_congr (hset used)]
    refine Prog.ends_ret ⟨by rw [hused], .one ⟨_, rfl⟩ hstart hlater (fun e he => ?_) (fun t => ?_)
      fun x hne => (Store.expire_of_ne hne _).trans (Store.set_of_ne hne _), by rw [if_pos hzero]; rfl⟩
    · dsimp only at he
      rw [Store.expire_self] at he
      obtain ⟨e', he', rfl⟩ := Option.map_eq_some_iff.1 he
      have hmem := Store.eq_of_live he'
      rw [Store.set_self] at hmem
      cases hmem
      exact hused
    · rw [← lives_expire hzero used t, ← hentry]
  · rw [if_neg (by omega)]
    refine Prog.ends_ret ⟨by rw [hused], .one ⟨_, rfl⟩ hstart (Nat.le_refl _) (fun e he => ?_)
      (fun t => ?_) fun x hne => Store.set_of_ne hne _, by rw [if_neg hzero]; rfl⟩
    · dsimp only at he
      rw [Store.set_self] at he
      cases he
      exact hused
    · rw [← lives_set hzero used t, ← hset]

theorem Took.cons {u : TakenUnit} {us : List TakenUnit} (h : Took c k [u] s s₁) (h' : Took c k us s₁ s')
    (hp : ∀ u' ∈ us, u'.period ≠ u.period) : Took c k (u :: us) s s' := by
  obtain ⟨⟨t, ht⟩, hstart, hvalue, hlives⟩ := h.units u List.mem_cons_self
  have hne : ∀ u' ∈ us, u.taken ≠ u'.taken := by
    intro u' hu' he
    obtain ⟨t', ht'⟩ := (h'.units u' hu').1
    rw [ht, ht'] at he
    exact hp u' hu' (period_eq_of_counterKey he).symm
  refine ⟨h.clock.trans h'.clock, fun u' hu' => ?_, fun x hx => ?_⟩
  · rcases List.mem_cons.1 hu' with rfl | hu'
    · rw [h'.others _ hne]
      exact ⟨⟨t, ht⟩, hstart.trans h'.clock, hvalue, fun t ht => hlives t (h'.clock.trans ht)⟩
    · exact h'.units u' hu'
  · rw [h'.others x fun u' hu' => hx u' (List.mem_cons_of_mem _ hu'), h.others x fun u' hu' => ?_]
    rw [List.mem_singleton.1 hu']
    exact hx u List.mem_cons_self

/-- The loop takes the units, and gives them back if it ends in an exception. -/
theorem consumeEach_took (qs : List Quota) (consumed : List QuotaPeriod)
    (s : Session platformTables.backend) (hd : (qs.map (·.period)).Nodup)
    (hc : ∀ q ∈ qs, ∀ t, s.world.redis (counterKey t k q.period) = c (counterKey t k q.period)) :
    ∃ s' e, Took c k (takeUnits c k qs (readings s)).1 s s' ∧
      readings s' = (takeUnits c k qs (readings s)).2.2 ∧
      ((takeUnits c k qs (readings s)).1.map (·.period)).Sublist (qs.map (·.period)) ∧
      (consumeEach k qs consumed).eval s = if (takeUnits c k qs (readings s)).2.1 = true then
        (rollbackQuota k (consumed ++ (takeUnits c k qs (readings s)).1.map (·.period)) >>=
          fun _ => Prog.raise e).eval s'
        else (.ok (consumed ++ (takeUnits c k qs (readings s)).1.map (·.period)), s') := by
  induction qs generalizing s consumed with
  | nil =>
    exact ⟨s, dataError, ⟨le_refl _, by simp [takeUnits], fun _ _ => rfl⟩, rfl, List.Sublist.refl _,
      by simp [consumeEach, takeUnits]⟩
  | cons q qs ih =>
    obtain ⟨check, s₁, heval, hcheck, htook, hreadings⟩ :=
      (consume_took k q.period q.maxRequests s (hc q List.mem_cons_self)).exists_ok
    obtain ⟨hnew, hd⟩ := List.nodup_cons.1 hd
    have hexceeded : check.exceeded = true ↔
        q.maxRequests < c.read (takenUnit k q.period (readings s)).start
            (takenUnit k q.period (readings s)).taken + 1 := by
      rw [hcheck]
      exact decide_eq_true_iff
    unfold consumeEach
    rw [Prog.eval_bind, heval]
    dsimp only
    by_cases hex : check.exceeded = true
    · have htake : takeUnits c k (q :: qs) (readings s) =
          ([takenUnit k q.period (readings s)], true, readings s₁) := by
        rw [takeUnits, if_pos (hexceeded.1 hex), hreadings]
      rw [htake, if_pos hex]
      exact ⟨s₁, _, htook, rfl, (List.nil_sublist _).cons_cons _, rfl⟩
    · have htake : takeUnits c k (q :: qs) (readings s) = (takenUnit k q.period (readings s) ::
          (takeUnits c k qs (readings s₁)).1, (takeUnits c k qs (readings s₁)).2) := by
        rw [takeUnits, if_neg (mt hexceeded.2 hex), hreadings]
      rw [htake, if_neg hex]
      -- the counters of the other periods are still as they were
      have hc' : ∀ q' ∈ qs, ∀ t, s₁.world.redis (counterKey t k q'.period) =
          c (counterKey t k q'.period) := by
        intro q' hq' t
        rw [htook.others _ fun u hu he => ?_]
        · exact hc q' (List.mem_cons_of_mem _ hq') t
        · rw [List.mem_singleton.1 hu] at he
          exact hnew (List.mem_map.2 ⟨q', hq', period_eq_of_counterKey he⟩)
      obtain ⟨s', e, htook', hreadings', hsub, he⟩ := ih (consumed ++ [q.period]) s₁ hd hc'
      refine ⟨s', e, htook.cons htook' fun u hu hp => hnew ?_, hreadings', hsub.cons_cons _, ?_⟩
      · have hmem := hsub.subset (List.mem_map_of_mem hu)
        rwa [hp] at hmem
      · rw [he]
        simp only [List.map_cons, List.append_assoc, List.singleton_append]
        rfl

/-! ### Giving units back -/

/-- Between the two sessions the units were given back as `rs` says. -/
structure Gave (k : Uuid) (us : List TakenUnit) (s : Session platformTables.backend)
    (rs : List (Refund RedisKey Time)) (s' : Session platformTables.backend) : Prop where
  clock : s.world.clock ≤ s'.world.clock
  taken : rs.map (·.toTake) = us.map (·.toTake)
  units : ∀ r ∈ rs, ∃ u ∈ us, r.toTake = u.toTake ∧ ∃ g, r.given = some g ∧
    (∃ t, g.1 = counterKey t k u.period) ∧
    s.world.clock ≤ g.2 ∧ g.2 ≤ s'.world.clock ∧ s'.world.redis g.1 =
      some ⟨s.world.redis.read g.2 g.1 - 1, (s.world.redis.live g.2 g.1).bind (·.expiry)⟩
  others : ∀ x, (∀ r ∈ rs, ∀ g ∈ r.given, x ≠ g.1) → s'.world.redis x = s.world.redis x

theorem rollbackQuota_gave (us : List TakenUnit) (s : Session platformTables.backend)
    (hd : (us.map (·.period)).Nodup) :
    (rollbackQuota k (us.map (·.period))).Ends
      (fun _ s' => Gave k us s (giveBack k us (readings s)).1 s' ∧
      readings s' = (giveBack k us (readings s)).2) (fun _ _ => False) s := by
  induction us generalizing s with
  | nil => exact ⟨⟨le_refl _, rfl, by simp [giveBack], fun _ _ => rfl⟩, rfl⟩
  | cons u us ih =>
    obtain ⟨hnew, hd⟩ := List.nodup_cons.1 hd
    rw [List.map_cons]
    unfold rollbackQuota giveBack
    set x := counterKey (readings s).tick.clock k u.period with hx
    set time := (readings s).tick.tick.clock with htime
    refine Prog.Ends.bind
      (Q := fun _ (s₁ : Session platformTables.backend) => s₁.world.clock = time ∧
        readings s₁ = (readings s).tick.tick ∧
      s₁.world.redis = s.world.redis.set time x (s.world.redis.read time x - 1)) ?_ fun _ s₁ hs₁ => ?_
    · unfold QuotaEnforcer.rollback
      refine Prog.Ends.bind
        (Q := fun t s₁ => t = (readings s).tick.clock ∧
          s₁ = s.step { s.world with clock := (readings s).tick.clock })
        (Prog.ends_ask ⟨rfl, rfl⟩) ?_
      rintro _ _ ⟨rfl, rfl⟩
      exact Prog.Ends.bind
        (Q := fun _ (s₁ : Session platformTables.backend) => s₁.world.clock = time ∧
          readings s₁ = (readings s).tick.tick ∧
        s₁.world.redis = s.world.redis.set time x (s.world.redis.read time x - 1)) (Prog.ends_ask
          ⟨rfl, rfl, rfl⟩) fun _ _ h => h
    obtain ⟨hclock, hreadings, hredis⟩ := hs₁
    rw [← hreadings]
    refine (ih s₁ hd).mono (fun _ s' h => ?_) fun _ _ h => h
    obtain ⟨h, hend⟩ := h
    -- the other units go back to counters of other periods
    have hne : ∀ r ∈ (giveBack k us (readings s₁)).1, ∀ g ∈ r.given, g.1 ≠ x := by
      intro r hr g hg he
      obtain ⟨u', hu', -, g', hg', ⟨t, ht⟩, -⟩ := h.units r hr
      rw [hg', Option.mem_some_iff] at hg
      rw [← hg, ht] at he
      exact hnew (List.mem_map.2 ⟨u', hu', period_eq_of_counterKey he⟩)
    have hle : s.world.clock ≤ time := (readings s).clock_le_tick.trans (readings s).tick.clock_le_tick
    have hle' : time ≤ s'.world.clock := hclock ▸ h.clock
    refine ⟨⟨hle.trans hle',
      by rw [List.map_cons, List.map_cons, h.taken], fun r hr => ?_, fun y hy => ?_⟩, hend⟩
    · rcases List.mem_cons.1 hr with rfl | hr
      · refine ⟨u, List.mem_cons_self, rfl, _, rfl, ⟨_, rfl⟩, hle, hle', ?_⟩
        rw [h.others _ fun r hr g hg => (hne r hr g hg).symm, hredis, Store.set_self]
      · obtain ⟨u', hu', htaken, g, hg, hgiven, hge, hge', hback⟩ := h.units r hr
        have hsame : s₁.world.redis g.1 = s.world.redis g.1 := by
          rw [hredis]
          exact Store.set_of_ne (hne r hr g hg) _
        rw [Store.read_congr hsame, Store.live_congr hsame] at hback
        exact ⟨u', List.mem_cons_of_mem _ hu', htaken, g, hg, hgiven, hle.trans (hclock ▸ hge),
          hge', hback⟩
    · rw [h.others y fun r hr => hy r (List.mem_cons_of_mem _ hr), hredis]
      exact Store.set_of_ne (hy _ List.mem_cons_self _ rfl) _

/-! ### The whole call -/

/-- What the rule for units asks of a call. -/
structure Refunded (c : Store RedisKey Int Time) (rs : List (Refund RedisKey Time))
    (s' : Session platformTables.backend) : Prop where
  keys : ∀ r ∈ rs, (∃ t k p, r.taken = counterKey t k p) ∧ ∀ g ∈ r.given, ∃ t k p,
    g.1 = counterKey t k p
  happens : ∀ r ∈ rs, ∃ s₁ done, r.Happens c s₁ s'.world.redis s'.world.clock done
  others : ∀ x, (∀ r ∈ rs, x ≠ r.taken ∧ ∀ g ∈ r.given, x ≠ g.1) → s'.world.redis x = c x

/-- Units that are given back. -/
theorem refunded_of_gave {us : List TakenUnit} {rs : List (Refund RedisKey Time)}
    (ht : Took c k us s s₁) (hc : s.world.redis = c) (h₁ : SameCounters s₁.world s₂.world)
    (hg : Gave k us s₂ rs s') (hd : (us.map (·.period)).Nodup) :
    Refunded c rs s' := by
  -- units of one period are one unit
  have hsame : ∀ u ∈ us, ∀ u' ∈ us, u.period = u'.period → u = u' := fun u hu u' hu' he =>
    List.inj_on_of_nodup_map hd hu hu' he
  have hkeys : (us.map (·.toTake)).Nodup := by
    refine (List.Nodup.of_map _ hd).map_on fun u hu u' hu' he => hsame u hu u' hu' ?_
    obtain ⟨t, hkey⟩ := (ht.units u hu).1
    obtain ⟨t', hkey'⟩ := (ht.units u' hu').1
    rw [he, hkey'] at hkey
    exact (period_eq_of_counterKey hkey).symm
  refine ⟨fun r hr => ?_, fun r hr => ?_, fun x hx => ?_⟩
  · obtain ⟨u, hu, htaken, g, hgiven, ⟨t, hkey⟩, -⟩ := hg.units r hr
    obtain ⟨t', hkey'⟩ := (ht.units u hu).1
    refine ⟨⟨t', k, u.period, by rw [htaken, hkey']⟩, fun g' hg' => ⟨t, k, u.period, ?_⟩⟩
    rw [hgiven, Option.mem_some_iff] at hg'
    rw [← hg', hkey]
  · obtain ⟨u, hu, htaken, g, hgiven, ⟨t, hkey⟩, hle, hle', hback⟩ := hg.units r hr
    obtain ⟨⟨t', hkey'⟩, hstart, hvalue, hlives⟩ := ht.units u hu
    have hclock : s₁.world.clock ≤ g.2 := h₁.1.1.trans hle
    rw [← htaken] at hkey' hstart hvalue hlives
    refine ⟨s₁.world.redis, s₁.world.clock, hstart, hclock.trans hle', hvalue, hlives,
      fun hnone => ?_, fun g' hg' => ?_⟩
    · rw [hgiven] at hnone
      cases hnone
    · rw [hgiven, Option.mem_some_iff] at hg'
      subst hg'
      refine ⟨hclock, hle', by rw [← h₁.2]; exact hback, fun hne => ⟨?_, ?_⟩⟩
      · rw [ht.others _ fun u' hu' he => ?_, hc]
        obtain ⟨t'', hkey''⟩ := (ht.units u' hu').1
        have hp := period_eq_of_counterKey (hkey.symm.trans (he.trans hkey''))
        exact hne (by rw [he, htaken, hsame u hu u' hu' hp])
      · rw [hg.others _ fun r' hr' g' hg' he => ?_, h₁.2]
        obtain ⟨u', hu', htaken', g'', hgiven', ⟨t'', hkey''⟩, -⟩ := hg.units r' hr'
        rw [hgiven', Option.mem_some_iff] at hg'
        subst hg'
        have hp := period_eq_of_counterKey (hkey'.symm.trans (he.trans hkey''))
        have heq : r = r' := by
          refine List.inj_on_of_nodup_map (by rw [hg.taken]; exact hkeys) hr hr' ?_
          rw [htaken, htaken', hsame u hu u' hu' hp]
        rw [← heq, hgiven, Option.some.injEq] at hgiven'
        exact hne (by rw [hgiven', he])
  · rw [hg.others x fun r hr => (hx r hr).2, h₁.2, ht.others x fun u hu => ?_, hc]
    have hmem : u.toTake ∈ rs.map (·.toTake) := by
      rw [hg.taken]
      exact List.mem_map_of_mem hu
    obtain ⟨r, hr, he⟩ := List.mem_map.1 hmem
    rw [← he]
    exact (hx r hr).1

theorem refunded_of_kept {us : List TakenUnit} (ht : Took c k us s s₁) (hc : s.world.redis = c)
    (h₁ : SameCounters s₁.world s'.world) : Refunded c (us.map fun u => ⟨u.toTake, none⟩) s' := by
  refine ⟨fun r hr => ?_, fun r hr => ?_, fun x hx => ?_⟩
  · obtain ⟨u, hu, rfl⟩ := List.mem_map.1 hr
    obtain ⟨t, hkey⟩ := (ht.units u hu).1
    exact ⟨⟨t, k, u.period, hkey⟩, by simp⟩
  · obtain ⟨u, hu, rfl⟩ := List.mem_map.1 hr
    obtain ⟨-, hstart, hvalue, hlives⟩ := ht.units u hu
    exact ⟨s₁.world.redis, s₁.world.clock, hstart, h₁.1.1, hvalue, hlives,
      fun _ => by rw [h₁.2], by simp⟩
  · rw [h₁.2, ht.others x fun u hu => (hx _ (List.mem_map_of_mem hu)).1, hc]

theorem listForApi_ends (apiId : Uuid) (s : Session platformTables.backend) :
    (QuotaRepository.listForApi apiId).Ends
    (fun quotas s' => quotas = (s.db.quotas.select fun q => q.apiId == apiId).rotate
      ((readings s).envs 0).number ∧
      (quotas.map (·.period)).Nodup ∧ readings s' = (readings s).skip) (fun _ _ => False) s := by
  refine Prog.Ends.bind
    (Q := fun rows s₁ => rows = (s.db.quotas.select fun q => q.apiId == apiId) ∧ s₁ = s)
    (Prog.ends_query ⟨rfl, rfl⟩) ?_
  rintro _ _ ⟨rfl, rfl⟩
  refine Prog.ends_ask ⟨rfl, ?_, rfl⟩
  exact ((List.rotate_perm _ _).map _).nodup_iff.2 (periods_nodup _ apiId)

theorem now_readings (s : Session platformTables.backend)
    {E : Failure → Session platformTables.backend → Prop} :
    (now : Platform Time).Ends (fun _ s' => readings s' = (readings s).tick) E s := Prog.ends_ask rfl

theorem resolve_readings (cfg : GatewayConfig) (req : IncomingRequest) (presentedKey : Option String)
    (s : Session platformTables.backend) :
    (resolve cfg req presentedKey).Ends (fun _ s' => readings s' = (readings s).tick)
        (fun _ _ => True) s := by
  unfold resolve
  refine Prog.Ends.bind (Q := fun _ s' => readings s' = (readings s).tick) ?_ fun r s₁ hs₁ => ?_
  · unfold authenticate
    split
    · exact Prog.ends_raise trivial
    · refine Prog.Ends.bind (Q := fun _ s₁ => s₁ = s) (Prog.ends_query rfl) ?_
      rintro row _ rfl
      cases row with
      | none => exact Prog.ends_raise trivial
      | some row =>
        refine (now_readings _).bind fun time s₂ hs₂ => ?_
        split
        · exact Prog.ends_raise trivial
        · split
          · exact Prog.ends_raise trivial
          · exact Prog.ends_ret hs₂
  · dsimp only
    split
    · exact Prog.ends_raise trivial
    · refine Prog.Ends.bind (Q := fun _ s₂ => s₂ = s₁) (Prog.ends_query rfl) ?_
      rintro found _ rfl
      split
      · exact Prog.ends_raise trivial
      · exact Prog.ends_ret hs₁

theorem redisEval_readings {α : Type}
    (script : Millis → LimiterStore → Except Failure (α × LimiterStore))
    (s : Session platformTables.backend) :
    (redisEval script).Ends (fun _ s' => readings s' = (readings s).tick) (fun _ _ => True) s := by
  unfold redisEval
  refine Prog.Ends.bind (Q := fun result s' => result.isOk = true → readings s' = (readings s).tick)
    (Prog.ends_attempt ?_)
    fun result s₁ hs₁ => ?_
  · dsimp only
    split
    · exact fun _ => rfl
    · exact fun h => by cases h
  · cases result with
    | error e => exact Prog.ends_raise trivial
    | ok a => exact Prog.ends_ret (hs₁ rfl)

theorem enforceRateLimit_readings (apiId apiKeyId : Uuid) (s : Session platformTables.backend) :
    (enforceRateLimit apiId apiKeyId).Ends (fun _ s' =>
      readings s' = afterLimit (s.db.rateLimitRules.one fun rule => rule.apiId == apiId)
          (readings s)) (fun _ _ => True) s := by
  have hcheck : ∀ algorithm keys spec,
      (checkLimit algorithm keys spec).Ends (fun _ s' => ∀ rule : RateLimitRule,
      rule.algorithm = algorithm → readings s' = afterLimit (some rule) (readings s))
          (fun _ _ => True) s := by
    intro algorithm keys spec
    unfold checkLimit
    cases algorithm with
    | fixedWindow =>
      refine (redisEval_readings _ s).mono (fun _ s' h rule hrule => ?_) fun _ _ h => h
      rw [afterLimit, Option.map_some, hrule, h]
    | slidingWindow =>
      refine (now_readings s).bind fun time s₁ hs₁ => ?_
      refine Prog.Ends.bind (Q := fun _ s₂ => readings s₂ = (readings s).tick.skip)
        (Prog.ends_ask (by rw [← hs₁]; rfl))
        fun perfCounter s₂ hs₂ => ?_
      refine (redisEval_readings _ s₂).mono (fun _ s' h rule hrule => ?_) fun _ _ h => h
      rw [afterLimit, Option.map_some, hrule, h, hs₂]
    | tokenBucket =>
      refine (now_readings s).bind fun time s₁ hs₁ => ?_
      refine (redisEval_readings _ s₁).mono (fun _ s' h rule hrule => ?_) fun _ _ h => h
      rw [afterLimit, Option.map_some, hrule, h, hs₁]
  unfold enforceRateLimit
  refine Prog.Ends.bind
    (Q := fun rule s₁ => rule = (s.db.rateLimitRules.one fun rule => rule.apiId == apiId) ∧ s₁ = s)
    (Prog.ends_query ⟨rfl, rfl⟩) ?_
  rintro rule s₁ ⟨hrule, rfl⟩
  rw [← hrule]
  cases rule with
  | none => exact Prog.ends_ret rfl
  | some rule =>
    refine (hcheck _ _ _).bind fun result s₂ hs₂ => ?_
    dsimp only
    split
    · exact Prog.ends_raise trivial
    · exact Prog.ends_ret (hs₂ rule rfl)

/-- `_forward` raises nothing itself: its caller gives back and raises what it returns. -/
theorem forward_readings (cfg : GatewayConfig) (url : String) (req : IncomingRequest)
    (s : Session platformTables.backend) :
    (forward cfg url req).Ends
      (fun result s' => ∀ e, result = .error e → readings s' = (readings s).skip.tick ∧
      (e.isException = true ↔ ((readings s).skip.envs 0).reply.upstream ≠ .failure .cancelled))
          (fun _ _ => False) s := by
  unfold forward
  refine Prog.Ends.bind (Q := fun _ s₁ => readings s₁ = (readings s).skip) (Prog.ends_ask rfl)
    fun start s₁ hs₁ => ?_
  rw [← hs₁]
  refine Prog.Ends.bind
    (Q := fun upstream s₂ => readings s₂ = (readings s₁).tick ∧ ∀ e, upstream = .error e →
    ((raised e).isException = true ↔ ((readings s₁).envs 0).reply.upstream ≠ .failure .cancelled))
      (Prog.ends_ask ⟨rfl, ?_⟩)
    fun upstream s₂ hs₂ => ?_
  · intro e he
    dsimp only at he
    show _ ↔ (s₁.envs 0).reply.upstream ≠ _
    split at he
    · rename_i e' hfailure
      rw [hfailure, ← Except.error.inj he]
      cases e' <;> simp [raised, Failure.isException, ErrorClass.error]
    · rename_i resp hresp
      rw [hresp]
      split at he
      · cases he
      · rw [← Except.error.inj he]
        simp [raised, Failure.isException, ErrorClass.error]
  · cases upstream with
    | error e =>
      refine Prog.ends_ret fun e' he => ?_
      rw [← Except.error.inj he]
      exact ⟨hs₂.1, hs₂.2 e rfl⟩
    | ok upstream =>
      exact Prog.Ends.bind (Q := fun _ _ => True) (Prog.ends_ask trivial)
        fun stop s₃ _ => Prog.ends_ret fun e he => by cases he

/-- A call that gets as far as its quotas. -/
theorem handle_refunds (cfg : GatewayConfig) (req : IncomingRequest) (presentedKey : Option String)
    (s : Session platformTables.backend) {key : ApiKey} {api : Api} {version : ApiVersion}
    (hresolve : ((resolve cfg req presentedKey).eval s).1 = .ok (key, api, version))
    (hrate : ((enforceRateLimit api.id key.id).eval
      ((resolve cfg req presentedKey).eval s).2).1.isOk = true) :
    (handle cfg req presentedKey).Ends (fun _ _ => True) (fun _ s' =>
      Refunded s.world.redis (callRefunds s.db s.world.redis key.id api.id (readings s)).1 s' ∧
        s'.world.clock = (callRefunds s.db s.world.redis key.id api.id (readings s)).2.clock) s := by
  unfold handle callRefunds
  have h₁ := counters_of_reads (reads_resolve cfg req presentedKey) s
  have hr₁ := resolve_readings cfg req presentedKey s
  cases he₁ : (resolve cfg req presentedKey).eval s with
  | mk r s₁ =>
  rw [he₁] at h₁ hresolve hrate
  obtain rfl : r = _ := hresolve
  refine Prog.ends_bind_ok he₁ ?_
  replace hr₁ := hr₁.of_ok he₁
  have h₂ := counters_of_reads (reads_enforceRateLimit api.id key.id) s₁
  have hr₂ := enforceRateLimit_readings api.id key.id s₁
  cases he₂ : (enforceRateLimit api.id key.id).eval s₁ with
  | mk r s₂ =>
  rw [he₂] at h₂ hrate
  cases r with
  | error e => cases hrate
  | ok rateInfo =>
  refine Prog.ends_bind_ok he₂ ?_
  replace hr₂ := hr₂.of_ok he₂
  rw [h₁.1, hr₁] at hr₂
  unfold enforceQuota
  rw [Prog.bind_assoc']
  obtain ⟨quotas, s₃, he₃, hquotas, hd, hr₃⟩ := (listForApi_ends api.id s₂).exists_ok
  have h₃ := counters_of_reads (reads_listForApi api.id) s₂
  dsimp only
  rw [he₃] at h₃
  rw [h₂.1, h₁.1, hr₂] at hquotas
  rw [hr₂] at hr₃
  refine Prog.ends_bind_ok he₃ ?_
  rw [← hquotas, ← hr₃]
  have hsame : s₃.world.redis = s.world.redis := h₃.2.2.trans (h₂.2.2.trans h₁.2.2)
  have hc : ∀ q ∈ quotas, ∀ t, s₃.world.redis (counterKey t key.id q.period) =
      s.world.redis (counterKey t key.id q.period) :=
    fun _ _ _ => by rw [hsame]
  obtain ⟨s₄, e, htook, hr₄, hsub, heval⟩ := consumeEach_took quotas [] s₃ hd hc
  replace hsub := hd.sublist hsub
  rw [List.nil_append] at heval
  unfold quotaRefunds
  dsimp only
  rw [← hr₄]
  by_cases hex : (takeUnits s.world.redis key.id quotas (readings s₃)).2.1 = true
  · obtain ⟨_, s', hroll, hgave, hend⟩ := (rollbackQuota_gave (k := key.id) _ s₄ hsub).exists_ok
    rw [if_pos hex, Prog.eval_bind, hroll] at heval
    rw [if_pos hex]
    exact Prog.ends_bind_error heval
      ⟨refunded_of_gave htook hsame (.refl _) hgave hsub, congrArg Readings.clock hend⟩
  · rw [if_neg hex] at heval ⊢
    refine Prog.ends_bind_ok heval ?_
    obtain ⟨result, s₅, he₅, hr₅⟩ := (forward_readings cfg version.upstreamBaseUrl req s₄).exists_ok
    have h₅ := counters_of_reads (reads_forward cfg version.upstreamBaseUrl req) s₄
    rw [he₅] at h₅
    refine Prog.ends_bind_ok he₅ ?_
    cases result with
    | ok result => exact Prog.Ends.bind (Q := fun _ _ => True) (Prog.ends_ask trivial) fun _ _ _ =>
      Prog.ends_ret trivial
    | error e =>
      obtain ⟨hr₅, hexception⟩ := hr₅ e rfl
      dsimp only
      rw [← hr₅]
      by_cases hcancelled : ((readings s₄).skip.envs 0).reply.upstream = .failure .cancelled
      · rw [if_neg (mt hexception.1 (not_not.2 hcancelled)), if_pos hcancelled]
        exact Prog.ends_raise ⟨refunded_of_kept htook hsame h₅.2, rfl⟩
      · rw [if_pos (hexception.2 hcancelled), if_neg hcancelled]
        refine ((rollbackQuota_gave (k := key.id) _ s₅ hsub).mono (fun _ _ h => h)
          fun _ _ h => h.elim).bind
          fun _ s' hgave => Prog.ends_raise ⟨refunded_of_gave htook hsame h₅.2 hgave.1 hsub,
            congrArg Readings.clock hgave.2⟩

/-- A call that gets as far as its quotas and raises leaves every quota counter as if it had not
been made, and none negative, exactly if none would be negative without it, and every unit that it
takes goes back to its counter before that expires, or to another one when both have expired by the
end, or has expired by the end of a cancelled call. -/
theorem failed_call_undone_iff (cfg : GatewayConfig) (req : IncomingRequest)
    (presentedKey : Option String) (s : Session platformTables.backend) (key : ApiKey) (api : Api)
    (version : ApiVersion)
    (hresolve : ((resolve cfg req presentedKey).eval s).1 = .ok (key, api, version))
    (hrate : ((enforceRateLimit api.id key.id).eval
      ((resolve cfg req presentedKey).eval s).2).1.isOk = true)
    (h : ((handle cfg req presentedKey).eval s).1.isOk = false) :
    let counters := s.world.redis
    let refunds := callRefunds s.db counters key.id api.id (readings s)
    Undone s ((handle cfg req presentedKey).eval s).2 ↔
      (∀ t apiKeyId period, 0 ≤ counters.read refunds.2.clock (counterKey t apiKeyId period)) ∧
        ∀ r ∈ refunds.1, r.Settles counters refunds.2.clock := by
  intro counters refunds
  obtain ⟨hr, hclock⟩ : Refunded counters refunds.1 ((handle cfg req presentedKey).eval s).2 ∧
      ((handle cfg req presentedKey).eval s).2.world.clock = refunds.2.clock := by
    cases he : (handle cfg req presentedKey).eval s with
    | mk r s₁ =>
      cases r with
      | ok outcome =>
        rw [he] at h
        cases h
      | error e => exact (handle_refunds cfg req presentedKey s hresolve hrate).of_error he
  have hiff := Refund.undone_iff (P := fun x => ∃ t k p, x = counterKey t k p) hr.keys
    hr.happens hr.others
  have hall : ∀ Q : RedisKey → Prop, (∀ x, (∃ t k p, x = counterKey t k p) → Q x) ↔ ∀ t k p,
      Q (counterKey t k p) := by
    intro Q
    constructor
    · exact fun hQ t k p => hQ _ ⟨t, k, p, rfl⟩
    · rintro hQ _ ⟨t, k, p, rfl⟩
      exact hQ t k p
  rw [hall, hall, hclock] at hiff
  unfold Undone
  rw [hclock]
  exact hiff

end

def midnight : Time := epoch + dayLength

/-- A call under a quota of one request a day whose upstream times out: it takes its unit just
before midnight, and gives it back after. -/
def midnightSession : Session platformTables.backend where
  db := sampleDailyDb
  dirty := []
  world := sampleGatewayWorld
  envs n := ⟨if n < 6 then midnight - second / 10 else midnight + second / 10, "", 0,
    ⟨.failure .timeout, .ok ()⟩⟩

/-- The condition decides what this call leaves. -/
theorem failed_call_undone_iff_midnight :
    let refunds := callRefunds sampleDailyDb Store.empty 43 41 (readings midnightSession)
    Undone midnightSession
      ((handle sampleGatewayConfig sampleIncoming (some "secret")).eval midnightSession).2 ↔
      (∀ t apiKeyId period, 0 ≤ Store.empty.read refunds.2.clock (counterKey t apiKeyId period)) ∧
        ∀ r ∈ refunds.1, r.Settles Store.empty refunds.2.clock :=
  failed_call_undone_iff sampleGatewayConfig sampleIncoming (some "secret") midnightSession
    ⟨43, 41, 5, "key", "atp_00000000", "0000", "#secret", none, none, none, none⟩
      ⟨41, 5, "Weather", "weather", "", true⟩
    ⟨42, 41, "v1", "https://weather.test", true⟩ (by decide +kernel) (by decide +kernel)
      (by decide +kernel)

/-- The unit of the old day stays taken, and the new day starts at -1. -/
theorem failed_call_not_undone : ¬ ∀ (cfg : GatewayConfig) (req : IncomingRequest)
    (presentedKey : Option String) (s : Session platformTables.backend),
    ((handle cfg req presentedKey).eval s).1.isOk = false →
    (∀ t time apiKeyId period, 0 ≤ s.world.redis.read t (counterKey time apiKeyId period)) →
    Undone s ((handle cfg req presentedKey).eval s).2 := by
  intro h
  have hundone := h sampleGatewayConfig sampleIncoming (some "secret") midnightSession
    (by decide +kernel)
    (fun t time apiKeyId period => le_refl 0)
  exact absurd (hundone midnight 43 .daily).2 (by decide +kernel)

end TrafficPlatform
