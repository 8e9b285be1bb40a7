import TrafficPlatform.Gateway
import TrafficPlatform.Kit.Ledger
import Mathlib.Algebra.Group.Pi.Basic
import Mathlib.Algebra.Group.Prod
import Mathlib.Data.List.Rotate

/-!
# The quota counters under concurrent calls

Any number of gateway calls run against Redis, one command after the other in any order. A call
holds the units that it has taken and not given back: those of the quotas that it was within, and
the one of the quota that it found exceeded. As long as the day lasts and no counter expires, each
counter is the sum of the units that the calls hold (`quotaLedger`), and the successful calls of a
key are the ones that keep theirs. A call whose task is cancelled while it awaits the upstream keeps
its units too (`quota_accounting_cancelled`).
-/

namespace TrafficPlatform
open Kit Gateway GatewayService

/-- The value of a counter; a missing key counts 0. -/
def counter (w : World PlatformOutside) (x : RedisKey) : Int := ((w.redis x).map (·.value)).getD 0

/-- Units of each counter: of quotas that were not exceeded, and of quotas found exceeded. -/
abbrev Units := (RedisKey → Nat) × (RedisKey → Nat)

/-- One unit of a counter. -/
def oneUnit (x : RedisKey) : RedisKey → Nat := Pi.single x 1

/-- The units of the periods. -/
def unitsOf (t₀ : Time) (apiKeyId : Uuid) (periods : List QuotaPeriod) : RedisKey → Nat :=
  (periods.map fun p => oneUnit (counterKey t₀ apiKeyId p)).sum

/-- The next step is on the day of `t₀`, and no counter has expired. -/
def BeforeExpiry (db : PlatformDb) (t₀ : Time) (env : Env PlatformInput)
    (w : World PlatformOutside) : Prop :=
  max w.clock env.time / dayLength = t₀ / dayLength ∧
    ∀ key ∈ db.apiKeys.rows, ∀ q ∈ db.quotas.rows, ∀ e ∈ w.redis (counterKey t₀ key.id q.period),
      ∀ t ∈ e.expiry, max w.clock env.time ≤ t

instance (db : PlatformDb) (t₀ : Time) (env : Env PlatformInput) (w : World PlatformOutside) :
    Decidable (BeforeExpiry db t₀ env w) :=
  inferInstanceAs (Decidable (_ ∧ _))

/-- Nothing is cancelled that awaits an upstream. -/
def Uncancelled (env : Env PlatformInput) : Prop := env.reply.upstream ≠ .failure .cancelled

instance (env : Env PlatformInput) : Decidable (Uncancelled env) :=
  inferInstanceAs (Decidable (_ ≠ _))

/-- The counters are the units held next to what they were at the start, and no quota is granted
more often than it says. -/
def quotaLedger (db : PlatformDb) (t₀ : Time) (base : RedisKey → Int) :
    Ledger platformTables.backend Units where
  ok env w := BeforeExpiry db t₀ env w ∧ Uncancelled env
  inv w g := ∀ key ∈ db.apiKeys.rows, ∀ q ∈ db.quotas.rows,
    counter w (counterKey t₀ key.id q.period) = base (counterKey t₀ key.id q.period) +
      g.1 (counterKey t₀ key.id q.period) + g.2 (counterKey t₀ key.id q.period) ∧
    (q.apiId = key.apiId → base (counterKey t₀ key.id q.period) ≤ q.maxRequests →
      base (counterKey t₀ key.id q.period) + g.1 (counterKey t₀ key.id q.period) ≤ q.maxRequests)

instance (db : PlatformDb) (t₀ : Time) (base : RedisKey → Int) (env : Env PlatformInput)
    (w : World PlatformOutside) :
    Decidable ((quotaLedger db t₀ base).ok env w) :=
  inferInstanceAs (Decidable (BeforeExpiry db t₀ env w ∧ Uncancelled env))

section
variable {db : PlatformDb} {t₀ t : Time} {base : RedisKey → Int} {key : ApiKey} {q : Quota} {g : Units}
  {w : World PlatformOutside} {env : Env PlatformInput}

theorem counterKey_of_day (h : t / dayLength = t₀ / dayLength) (k : Uuid) (p : QuotaPeriod) :
    quotaKey k p (bucketAndTtl p t).1 = counterKey t₀ k p := by
  refine QuotaPeriod.quotaKey_eq_iff.2 ⟨rfl, rfl, ?_⟩
  cases p with
  | daily => exact h
  | monthly => simp only [QuotaPeriod.Same, Time.date, h, and_self]

@[simp] theorem unitsOf_nil (k : Uuid) : unitsOf t₀ k [] = 0 := rfl

@[simp] theorem unitsOf_cons (k : Uuid) (p : QuotaPeriod) (ps : List QuotaPeriod) :
    unitsOf t₀ k (p :: ps) = oneUnit (counterKey t₀ k p) + unitsOf t₀ k ps := rfl

theorem unitsOf_append (k : Uuid) (ps ps' : List QuotaPeriod) :
    unitsOf t₀ k (ps ++ ps') = unitsOf t₀ k ps + unitsOf t₀ k ps' := by
  simp [unitsOf]

theorem unitsOf_counterKey (k k' : Uuid) (p : QuotaPeriod) (ps : List QuotaPeriod) :
    unitsOf t₀ k ps (counterKey t₀ k' p) = if k = k' then ps.count p else 0 := by
  induction ps with
  | nil => simp
  | cons p' ps ih =>
    have hone : oneUnit (counterKey t₀ k p') (counterKey t₀ k' p) = if k = k' ∧
        p' = p then 1 else 0 := by
      simp only [oneUnit, Pi.single_apply, counterKey_eq_iff, eq_comm]
    rw [unitsOf_cons, Pi.add_apply, ih, hone, List.count_cons]
    by_cases hk : k = k'
    · simp only [hk, true_and, if_true, beq_iff_eq, Nat.add_comm]
    · simp only [hk, false_and, if_false]

/-! ### Redis commands -/

theorem get_of_ok (h : BeforeExpiry db t₀ env w) (hk : key ∈ db.apiKeys.rows)
    (hq : q ∈ db.quotas.rows) :
    (w.redis.get (max w.clock env.time) (counterKey t₀ key.id q.period)).getD 0 =
      counter w (counterKey t₀ key.id q.period) := by
  unfold counter Store.get
  cases he : w.redis (counterKey t₀ key.id q.period) with
  | none => rw [Store.live_of_none he]
  | some e => rw [Store.live_some he fun t ht => h.2 key hk q hq e he t ht]

theorem counter_set (w : World PlatformOutside) (time : Time) (x y : RedisKey) (n : Int)
    (clock : Time) :
    counter { w with clock := clock, redis := w.redis.set time x n } y = if y =
        x then n else counter w y := by
  by_cases h : y = x
  · subst h; simp [counter]
  · simp [counter, h]

theorem keeps_counters {w' : World PlatformOutside} (h : w'.redis = w.redis) {g : Units}
    (hinv : (quotaLedger db t₀ base).inv w g) : (quotaLedger db t₀ base).inv w' g := by
  unfold quotaLedger counter at *
  simpa only [h] using hinv

theorem now_shares : (now : Platform Time).Shares (quotaLedger db t₀ base) db
    (fun t g' => t / dayLength = t₀ / dayLength ∧ g' = g) g :=
  .ask fun _ _ _ hok hinv => ⟨g, keeps_counters rfl hinv, hok.1.1, rfl⟩

/-- Taking a unit: it is granted if the counter stays within the limit. -/
theorem incr_shares (hk : key ∈ db.apiKeys.rows) (hq : q ∈ db.quotas.rows) (ha : q.apiId = key.apiId) :
    (redisIncr (counterKey t₀ key.id q.period) : Platform Int).Shares (quotaLedger db t₀ base) db
      (fun used g' => g' = if used > q.maxRequests then
        (g.1, g.2 + oneUnit (counterKey t₀ key.id q.period))
        else (g.1 + oneUnit (counterKey t₀ key.id q.period), g.2)) g := by
  refine .ask fun env w rest hok hinv => ⟨_, ?_, rfl⟩
  intro key' hk' q' hq'
  obtain ⟨hcount, hcap⟩ := hinv key' hk' q' hq'
  simp only [World.incr, counter_set, get_of_ok hok.1 hk hq]
  by_cases hx : counterKey t₀ key'.id q'.period = counterKey t₀ key.id q.period
  · rw [if_pos hx, ← hx, hcount]
    have hself : oneUnit (counterKey t₀ key'.id q'.period) (counterKey t₀ key'.id q'.period) = 1 := by
      simp [oneUnit]
    split <;> rename_i hused <;>
      simp only [Prod.fst_add, Prod.snd_add, Pi.add_apply, hself] at hcount hcap hused ⊢
    · exact ⟨by push_cast; omega, hcap⟩
    · refine ⟨by push_cast; omega, fun ha' hb => ?_⟩
      -- the two quotas are one: they have the API and the period in common
      obtain ⟨hid, hp⟩ := counterKey_eq_iff.1 hx
      obtain rfl : key' = key := Table.eq_of_clash hk' hk (ApiKey.clash_iff.2 (.inl hid))
      obtain rfl : q' = q := Table.eq_of_clash hq' hq (Quota.clash_iff.2 (.inr ⟨ha'.trans ha.symm, hp⟩))
      push_cast
      omega
  · rw [if_neg hx]
    have hother : oneUnit (counterKey t₀ key.id q.period) (counterKey t₀ key'.id q'.period) = 0 := by
      simp [oneUnit, hx]
    split <;> simpa [hother] using ⟨hcount, hcap⟩

/-- `EXPIRE` on a counter leaves its value. -/
theorem expire_shares (hk : key ∈ db.apiKeys.rows) (hq : q ∈ db.quotas.rows) (seconds : Nat) :
    (redisExpire (counterKey t₀ key.id q.period) seconds : Platform Unit).Shares
      (quotaLedger db t₀ base) db
      (fun _ g' => g' = g) g := by
  refine .ask fun env w rest hok hinv => ⟨g, fun key' hk' q' hq' => ?_, rfl⟩
  obtain ⟨hcount, hcap⟩ := hinv key' hk' q' hq'
  refine ⟨?_, hcap⟩
  rw [← hcount]
  unfold World.expire counter
  by_cases hx : counterKey t₀ key'.id q'.period = counterKey t₀ key.id q.period
  · rw [hx]
    cases he : w.redis (counterKey t₀ key.id q.period) with
    | none => simp [Store.live_of_none he]
    | some e =>
      have hlive := Store.live_some he fun t ht => hok.1.2 key hk q hq e he t ht
      simp [hlive]
  · simp [Store.expire_of_ne hx]

/-- Giving a unit back. -/
theorem decr_shares (hk : key ∈ db.apiKeys.rows) (hq : q ∈ db.quotas.rows) (g' : Units)
    (hg : g = (g'.1 + oneUnit (counterKey t₀ key.id q.period), g'.2) ∨
      g = (g'.1, g'.2 + oneUnit (counterKey t₀ key.id q.period))) :
    (redisDecr (counterKey t₀ key.id q.period) : Platform Int).Shares (quotaLedger db t₀ base) db
      (fun _ g'' => g'' = g') g := by
  refine .ask fun env w rest hok hinv => ⟨g', fun key' hk' q' hq' => ?_, rfl⟩
  obtain ⟨hcount, hcap⟩ := hinv key' hk' q' hq'
  simp only [World.decr, counter_set, get_of_ok hok.1 hk hq]
  by_cases hx : counterKey t₀ key'.id q'.period = counterKey t₀ key.id q.period
  · rw [if_pos hx, ← hx, hcount]
    have hself : oneUnit (counterKey t₀ key'.id q'.period) (counterKey t₀ key'.id q'.period) = 1 := by
      simp [oneUnit]
    rw [← hx] at hg
    rcases hg with rfl | rfl <;>
      simp only [Prod.fst_add, Prod.snd_add, Pi.add_apply, hself] at hcount hcap ⊢ <;>
      push_cast at hcount hcap ⊢
    · exact ⟨by omega, fun ha' hb => by have := hcap ha' hb; omega⟩
    · exact ⟨by omega, hcap⟩
  · rw [if_neg hx]
    have hother : oneUnit (counterKey t₀ key.id q.period) (counterKey t₀ key'.id q'.period) = 0 := by
      simp [oneUnit, hx]
    rcases hg with rfl | rfl <;>
      simp only [Prod.fst_add, Prod.snd_add, Pi.add_apply, hother, Nat.add_zero] at hcount hcap ⊢
        <;>
      exact ⟨hcount, hcap⟩

/-! ### The quota steps -/

theorem consume_shares (hk : key ∈ db.apiKeys.rows) (hq : q ∈ db.quotas.rows)
    (ha : q.apiId = key.apiId) :
    (QuotaEnforcer.consume (T := platformTables) key.id q.period q.maxRequests).Shares
      (quotaLedger db t₀ base) db
      (fun check g' => g' = if check.exceeded then (g.1, g.2 + oneUnit (counterKey t₀ key.id q.period))
        else (g.1 + oneUnit (counterKey t₀ key.id q.period), g.2)) g := by
  unfold QuotaEnforcer.consume
  refine now_shares.bind fun t g' ht => ?_
  obtain ⟨hday, rfl⟩ := ht
  simp only [counterKey_of_day hday]
  refine (incr_shares hk hq ha).bind fun used g'' hg => ?_
  have hret : (pure { period := q.period, limit := q.maxRequests, used := used } :
      Platform QuotaCheck).Shares
      (quotaLedger db t₀ base) db (fun check g'' => g'' = if check.exceeded then
        (g'.1, g'.2 + oneUnit (counterKey t₀ key.id q.period)) else
          (g'.1 + oneUnit (counterKey t₀ key.id q.period), g'.2))
      g'' := by
    show g'' = _
    rw [hg]
    simp [QuotaCheck.exceeded]
  by_cases hnew : used = 1
  · rw [if_pos hnew]
    exact (expire_shares hk hq _).bind fun _ g₃ hg₃ => by rw [hg₃]; exact hret
  · rw [if_neg hnew]
    exact hret

theorem rollback_shares (hk : key ∈ db.apiKeys.rows) (hq : q ∈ db.quotas.rows) (g' : Units)
    (hg : g = (g'.1 + oneUnit (counterKey t₀ key.id q.period), g'.2) ∨
      g = (g'.1, g'.2 + oneUnit (counterKey t₀ key.id q.period))) :
    (QuotaEnforcer.rollback (T := platformTables) key.id q.period).Shares (quotaLedger db t₀ base) db
      (fun _ g'' => g'' = g') g := by
  unfold QuotaEnforcer.rollback
  refine now_shares.bind fun t g₂ ht => ?_
  obtain ⟨hday, rfl⟩ := ht
  simp only [counterKey_of_day hday]
  exact (decr_shares hk hq g' hg).bind fun _ g₃ hg₃ => hg₃

theorem rollbackQuota_shares (hk : key ∈ db.apiKeys.rows) (ps : List QuotaPeriod)
    (hps : ∀ p ∈ ps, ∃ q ∈ db.quotas.rows, q.period = p) (d : RedisKey → Nat) :
    (rollbackQuota key.id ps).Shares (quotaLedger db t₀ base) db (fun _ g' => g' = (0, d))
        (unitsOf t₀ key.id ps, d) := by
  induction ps with
  | nil => rfl
  | cons p ps ih =>
    obtain ⟨q, hq, rfl⟩ := hps p List.mem_cons_self
    unfold rollbackQuota
    refine (rollback_shares hk hq (unitsOf t₀ key.id ps, d) (.inl ?_)).bind fun _ g' hg => ?_
    · rw [unitsOf_cons, add_comm]
    · rw [hg]
      exact ih fun p hp => hps p (List.mem_cons_of_mem _ hp)

theorem rollbackQuota_append (k : Uuid) (ps ps' : List QuotaPeriod) :
    rollbackQuota k (ps ++ ps') = rollbackQuota k ps >>= fun _ => rollbackQuota k ps' := by
  induction ps with
  | nil => rfl
  | cons p ps ih => simp only [List.cons_append, rollbackQuota, ih, Prog.bind_assoc']

/-- The loop ends with the units of all quotas, or raises with none. -/
theorem consumeEach_shares (hk : key ∈ db.apiKeys.rows) (qs : List Quota)
    (consumed : List QuotaPeriod) (hqs : ∀ q ∈ qs, q ∈ db.quotas.rows ∧ q.apiId = key.apiId)
    (hps : ∀ p ∈ consumed, ∃ q ∈ db.quotas.rows, q.period = p) :
    (consumeEach key.id qs consumed).Shares (quotaLedger db t₀ base) db
      (fun ps g' => ps = consumed ++ qs.map (·.period) ∧ g' = (unitsOf t₀ key.id ps, 0))
          (unitsOf t₀ key.id consumed, 0) := by
  induction qs generalizing consumed with
  | nil => exact ⟨by simp, rfl⟩
  | cons q qs ih =>
    obtain ⟨hq, ha⟩ := hqs q List.mem_cons_self
    unfold consumeEach
    refine (consume_shares hk hq ha).bind fun check g' hg => ?_
    by_cases hc : check.exceeded = true
    · rw [if_pos hc] at hg ⊢
      rw [rollbackQuota_append, Prog.bind_assoc', hg]
      refine (rollbackQuota_shares hk consumed hps _).bind fun _ g'' hg'' => ?_
      rw [hg'']
      unfold rollbackQuota
      rw [Prog.bind_assoc']
      exact (rollback_shares hk hq 0 (.inr (by simp))).bind fun _ g₃ hg₃ => hg₃
    · rw [if_neg hc] at hg ⊢
      have hunits : g' = (unitsOf t₀ key.id (consumed ++ [q.period]), 0) := by
        rw [hg, unitsOf_append]; simp
      rw [hunits]
      refine (ih (consumed ++ [q.period]) (fun q hq => hqs q (List.mem_cons_of_mem _ hq))
        fun p hp => ?_).mono ?_
      · rcases List.mem_append.1 hp with hp | hp
        · exact hps p hp
        · exact ⟨q, hq, (List.mem_singleton.1 hp).symm⟩
      · rintro ps g'' ⟨rfl, rfl⟩
        simp

theorem enforceQuota_shares (hk : key ∈ db.apiKeys.rows) :
    (enforceQuota key.apiId key.id).Shares (quotaLedger db t₀ base) db
      (fun ps g' => ps.Perm ((db.quotas.select fun q => q.apiId == key.apiId).map (·.period)) ∧
        g' = (unitsOf t₀ key.id ps, 0)) 0 := by
  have hlist : (QuotaRepository.listForApi key.apiId).Shares (quotaLedger db t₀ base) db
      (fun qs g' => qs.Perm (db.quotas.select fun q => q.apiId == key.apiId) ∧ g' = 0) 0 := by
    refine Prog.Shares.bind
      (Q := fun rows g' => rows = db.quotas.select (fun q => q.apiId == key.apiId) ∧ g' = 0)
      (.query ⟨rfl, rfl⟩) fun rows g' hrows => ?_
    obtain ⟨rfl, rfl⟩ := hrows
    exact .ask fun env w rest _ hinv => ⟨0, hinv, List.rotate_perm _ _, rfl⟩
  refine hlist.bind fun qs g' hqs => ?_
  obtain ⟨hperm, rfl⟩ := hqs
  refine (consumeEach_shares hk qs [] (fun q hq => ?_) (by simp)).mono ?_
  · obtain ⟨hq, ha⟩ := Table.mem_select.1 (hperm.subset hq)
    exact ⟨hq, by simpa using ha⟩
  · rintro ps g' ⟨rfl, rfl⟩
    exact ⟨hperm.map _, rfl⟩

/-! ### The rest of a call -/

theorem redisEval_shares {α : Type}
    (script : Millis → LimiterStore → Except Failure (α × LimiterStore)) :
    (redisEval script).Shares (quotaLedger db t₀ base) db (fun _ g' => g' = 0) 0 := by
  unfold redisEval
  refine Prog.Shares.bind (Q := fun _ g' => g' = 0)
    (fun env w rest _ hinv => ⟨0, keeps_counters ?_ hinv, rfl⟩) ?_
  · dsimp only
    split <;> rfl
  · intro result g' hg
    cases result <;> exact hg

theorem perfCounterNs_shares (g : Units) :
    perfCounterNs.Shares (quotaLedger db t₀ base) db (fun _ g' => g' = g) g :=
  .ask fun _ _ _ _ hinv => ⟨g, hinv, rfl⟩

theorem enforceRateLimit_shares (apiId apiKeyId : Uuid) :
    (enforceRateLimit apiId apiKeyId).Shares (quotaLedger db t₀ base) db (fun _ g' => g' = 0) 0 := by
  have hcheck : ∀ algorithm keys spec,
      (checkLimit algorithm keys spec).Shares (quotaLedger db t₀ base) db
      (fun _ g' => g' = 0) 0 := by
    intro algorithm keys spec
    unfold checkLimit
    cases algorithm with
    | fixedWindow => exact redisEval_shares _
    | slidingWindow =>
      refine now_shares.bind fun t g' ht => ?_
      rw [ht.2]
      refine (perfCounterNs_shares 0).bind fun n g'' hg => ?_
      rw [hg]
      exact redisEval_shares _
    | tokenBucket =>
      refine now_shares.bind fun t g' ht => ?_
      rw [ht.2]
      exact redisEval_shares _
  refine Prog.Shares.bind (Q := fun _ g' => g' = 0) (.query rfl) fun rule g' hg => ?_
  rw [hg]
  cases rule with
  | none => exact rfl
  | some rule =>
    refine (hcheck _ _ _).bind fun result g'' hg => ?_
    rw [hg]
    by_cases hr : result.allowed = true <;>
      simp only [hr, Bool.not_true, Bool.not_false, if_true] <;> rfl

theorem authenticate_shares (cfg : GatewayConfig) (presentedKey : Option String) :
    (authenticate cfg presentedKey).Shares (quotaLedger db t₀ base) db
      (fun r g' => r.1 ∈ db.apiKeys.rows ∧ r.2.id = r.1.apiId ∧ g' = 0) 0 := by
  unfold authenticate
  split
  · exact rfl
  · rename_i raw _
    refine Prog.Shares.bind
      (Q := fun row g' => (∀ r ∈ row, r.1 ∈ db.apiKeys.rows ∧ r.2.id = r.1.apiId) ∧ g' = 0)
      (.query ⟨fun r hr => ?_, rfl⟩) fun row g' hrow => ?_
    · obtain ⟨k, hk, hr⟩ := Option.bind_eq_some_iff.1 hr
      obtain ⟨a, ha, rfl⟩ := Option.map_eq_some_iff.1 hr
      exact ⟨Table.mem_of_one hk, by simpa using Table.pred_of_one ha⟩
    · obtain ⟨hrow, rfl⟩ := hrow
      cases row with
      | none => exact rfl
      | some r =>
        refine now_shares.bind fun t g' ht => ?_
        rw [ht.2]
        split
        · exact rfl
        · split
          · exact rfl
          · exact ⟨(hrow r rfl).1, (hrow r rfl).2, rfl⟩

theorem resolve_shares (cfg : GatewayConfig) (req : IncomingRequest) (presentedKey : Option String) :
    (resolve cfg req presentedKey).Shares (quotaLedger db t₀ base) db
      (fun r g' => r.1 ∈ db.apiKeys.rows ∧ r.2.1.id = r.1.apiId ∧ g' = 0) 0 := by
  unfold resolve
  refine (authenticate_shares cfg presentedKey).bind fun r g' hr => ?_
  obtain ⟨hk, ha, rfl⟩ := hr
  dsimp only
  split
  · exact rfl
  · refine Prog.Shares.bind (Q := fun _ g' => g' = 0) (.query rfl) fun version g' hg => ?_
    rw [hg]
    split
    · exact rfl
    · exact ⟨hk, ha, rfl⟩

/-- What is raised is an `Exception`. -/
theorem forward_shares (cfg : GatewayConfig) (url : String) (req : IncomingRequest) (g : Units) :
    (forward cfg url req).Shares (quotaLedger db t₀ base) db
      (fun result g' => g' = g ∧ ∀ e, result = .error e → e.isException = true) g := by
  unfold forward
  refine (perfCounterNs_shares g).bind fun start g' hg => ?_
  rw [hg]
  refine Prog.Shares.bind (Q := fun upstream g' => g' = g ∧ upstream ≠ .error .cancelled)
    (.ask fun env w rest hok hinv => ⟨g, keeps_counters rfl hinv, rfl, ?_⟩) fun upstream g' hg => ?_
  · intro he
    have hreply := hok.2
    unfold Uncancelled at hreply
    dsimp only at he
    split at he
    · rename_i hfailure
      rw [hfailure, Except.error.inj he] at hreply
      exact hreply rfl
    · split at he <;> cases he
  · obtain ⟨rfl, hup⟩ := hg
    cases upstream with
    | error e =>
      refine ⟨rfl, fun e' he => ?_⟩
      rw [← Except.error.inj he]
      cases e with
      | cancelled => exact absurd rfl hup
      | timeout | httpError | other => rfl
    | ok upstream => exact (perfCounterNs_shares g').bind fun stop g'' hg =>
      ⟨hg, fun e he => by cases he⟩

/-- The share that a successful call keeps. -/
def KeepsUnits (db : PlatformDb) (t₀ : Time) (outcome : GatewayOutcome) (g : Units) : Prop :=
  (∃ key ∈ db.apiKeys.rows, key.id = outcome.apiKeyId ∧ key.apiId = outcome.apiId) ∧
    ∃ ps, ps.Perm ((db.quotas.select fun q => q.apiId == outcome.apiId).map (·.period)) ∧
      g = (unitsOf t₀ outcome.apiKeyId ps, 0)

/-- A call that succeeds keeps one unit of every quota of its API, and one that raises keeps none. -/
theorem handle_shares (cfg : GatewayConfig) (req : IncomingRequest) (presentedKey : Option String) :
    (handle cfg req presentedKey).Shares (quotaLedger db t₀ base) db (KeepsUnits db t₀) 0 := by
  unfold handle
  refine (resolve_shares cfg req presentedKey).bind fun r g' hr => ?_
  obtain ⟨hk, ha, rfl⟩ := hr
  refine (enforceRateLimit_shares _ _).bind fun rateInfo g' hg => ?_
  rw [hg, ha]
  refine (enforceQuota_shares hk).bind fun consumed g' hg => ?_
  obtain ⟨hperm, rfl⟩ := hg
  refine (forward_shares cfg _ req _).bind fun result g' hg => ?_
  obtain ⟨rfl, he⟩ := hg
  cases result with
  | error e =>
    dsimp only
    rw [if_pos (he e rfl)]
    refine (rollbackQuota_shares hk consumed (fun p hp => ?_) 0).bind fun _ g' hg => hg
    obtain ⟨q, hq, rfl⟩ := List.mem_map.1 (hperm.subset hp)
    exact ⟨q, (Table.mem_select.1 hq).1, rfl⟩
  | ok result =>
    refine now_shares.bind fun timestamp g' ht => ?_
    rw [ht.2]
    exact ⟨⟨r.1, hk, rfl, rfl⟩, consumed, hperm, rfl⟩

end

/-! ### Whole runs -/

/-- Gateway calls: the requests and the keys presented with them. -/
abbrev GatewaySystem := System platformTables.backend (IncomingRequest × Option String) GatewayOutcome

def callProg (cfg : GatewayConfig) (r : IncomingRequest × Option String) :
    Platform GatewayOutcome := handle cfg r.1 r.2

/-- One step of some call. -/
abbrev gatewayNext (cfg : GatewayConfig) :
    GatewaySystem → Event platformTables.backend (IncomingRequest × Option String) → GatewaySystem :=
  System.next (callProg cfg)

/-- The call has ended with an outcome for the key. -/
def Succeeded (k : Uuid)
    (t : Thread platformTables.backend (IncomingRequest × Option String) GatewayOutcome) : Bool :=
  match t.phase with
  | .committed outcome => outcome.apiKeyId == k
  | _ => false

def successes (s : GatewaySystem) (k : Uuid) : Nat := s.threads.countP (Succeeded k)

section
variable {db : PlatformDb} {t₀ : Time} {base : RedisKey → Int} {key : ApiKey} {q : Quota}

/-- A successful call keeps one unit of every quota of its key. -/
theorem KeepsUnits.unit {outcome : GatewayOutcome} {g : Units} (h : KeepsUnits db t₀ outcome g)
    (hk : key ∈ db.apiKeys.rows) (hq : q ∈ db.quotas.rows) (ha : q.apiId = key.apiId) :
    g.1 (counterKey t₀ key.id q.period) = (if outcome.apiKeyId == key.id then 1 else 0) ∧
      g.2 (counterKey t₀ key.id q.period) = 0 := by
  obtain ⟨⟨key', hk', hid, hapi⟩, ps, hperm, rfl⟩ := h
  refine ⟨?_, rfl⟩
  dsimp only
  rw [unitsOf_counterKey]
  by_cases he : outcome.apiKeyId = key.id
  · obtain rfl : key' = key := Table.eq_of_clash hk' hk (ApiKey.clash_iff.2 (.inl (hid.trans he)))
    have hmem : q.period ∈ (db.quotas.select fun q => q.apiId == outcome.apiId).map (·.period) :=
      List.mem_map_of_mem (Table.mem_select.2 ⟨hq, by simp [ha, hapi]⟩)
    rw [if_pos he, hperm.count_eq, List.count_eq_one_of_mem (periods_nodup db _) hmem]
    simp [he]
  · rw [if_neg he]
    simp [he]

/-- The units that the calls of a state hold: at least those of the successful calls, and in a quiet
state these alone. -/
theorem shares_successes
    {threads : List
      (Thread platformTables.backend (IncomingRequest × Option String) GatewayOutcome)}
    {shares : List Units}
    (h : List.Forall₂ (fun t g => t.phase.Shares (quotaLedger db t₀ base) db (KeepsUnits db t₀) g)
      threads shares) (hk : key ∈ db.apiKeys.rows) (hq : q ∈ db.quotas.rows) (ha :
        q.apiId = key.apiId) :
    threads.countP (Succeeded key.id) ≤ shares.sum.1 (counterKey t₀ key.id q.period) ∧
      ((∀ t ∈ threads, t.phase.Ended) → shares.sum.1 (counterKey t₀ key.id q.period) =
        threads.countP (Succeeded key.id) ∧
        shares.sum.2 (counterKey t₀ key.id q.period) = 0) := by
  induction h with
  | nil => exact ⟨le_refl _, fun _ => ⟨rfl, rfl⟩⟩
  | @cons t g threads shares ht _ ih =>
    have hone : (if Succeeded key.id t then 1 else 0) ≤ g.1 (counterKey t₀ key.id q.period) ∧
        (t.phase.Ended →
        g.1 (counterKey t₀ key.id q.period) = (if Succeeded key.id t then 1 else 0) ∧
          g.2 (counterKey t₀ key.id q.period) = 0) := by
      unfold Succeeded
      cases hp : t.phase with
      | running p d w => exact ⟨Nat.zero_le _, fun he => he.elim⟩
      | committed outcome =>
        rw [hp] at ht
        have hu := KeepsUnits.unit ht hk hq ha
        exact ⟨le_of_eq hu.1.symm, fun _ => hu⟩
      | rolledBack e =>
        rw [hp] at ht
        have hg : g = 0 := ht
        exact ⟨Nat.zero_le _, fun _ => by rw [hg]; exact ⟨rfl, rfl⟩⟩
    rw [List.countP_cons, List.sum_cons, Prod.fst_add, Prod.snd_add, Pi.add_apply, Pi.add_apply]
    refine ⟨by have := ih.1; have := hone.1; omega, fun hended => ?_⟩
    obtain ⟨hsum, hzero⟩ := ih.2 fun t' ht' => hended t' (List.mem_cons_of_mem _ ht')
    obtain ⟨hg, hg'⟩ := hone.2 (hended t List.mem_cons_self)
    rw [hsum, hzero, hg, hg']
    exact ⟨Nat.add_comm _ _, rfl⟩

/-- Within a day and before any counter expires, from any state of the counters and for every
interleaving of the commands of any number of calls: a quota is never granted more often than it
says, and when no call is in flight each counter has grown by the successful calls of its key. -/
theorem quota_accounting (cfg : GatewayConfig) (t₀ : Time) (s : GatewaySystem)
    (es : List (Event platformTables.backend (IncomingRequest × Option String))) (hs : s.threads = [])
    (hm : Meets (gatewayNext cfg) (System.Regular (quotaLedger s.db t₀ (counter s.world))) s es) :
    Always (gatewayNext cfg)
      (fun s' => ∀ key ∈ s.db.apiKeys.rows, ∀ q ∈ s.db.quotas.rows, q.apiId = key.apiId →
        (counter s.world (counterKey t₀ key.id q.period) ≤ q.maxRequests →
          counter s.world (counterKey t₀ key.id q.period) + successes s' key.id ≤ q.maxRequests) ∧
        (s'.Quiet → counter s'.world (counterKey t₀ key.id q.period) =
          counter s.world (counterKey t₀ key.id q.period) + successes s' key.id)) s es := by
  have hstart : s.Balanced (quotaLedger s.db t₀ (counter s.world)) (fun _ => KeepsUnits s.db t₀) :=
    System.balanced_of_nil hs fun key _ q _ => ⟨by simp, fun _ h => by simpa using h⟩
  have hprog : ∀ r, (callProg cfg r).Shares (quotaLedger s.db t₀ (counter s.world)) s.db
      (KeepsUnits s.db t₀) 0 :=
    fun r => handle_shares cfg r.1 r.2
  have halways := hstart.always hprog hm
  refine (always_iff.2 fun es₁ es₂ he key hk q hq ha => ?_)
  obtain ⟨⟨shares, hall, hinv⟩, hdb⟩ := always_iff.1 halways es₁ es₂ he
  rw [hdb] at hall
  obtain ⟨hcount, hcap⟩ := hinv key hk q hq
  obtain ⟨hle, hquiet⟩ := shares_successes hall hk hq ha
  refine ⟨fun hb => ?_, fun hq' => ?_⟩
  · have := hcap ha hb
    unfold successes gatewayNext
    omega
  · obtain ⟨hsum, hzero⟩ := hquiet hq'
    unfold successes gatewayNext
    omega

end

/-- Two concurrent calls under a quota of one request a day: the first is granted the unit, and the
second one gives its unit back while the first is at the upstream. -/
def quotaRace : List (Event platformTables.backend (IncomingRequest × Option String)) :=
  [.start (sampleIncoming, some "secret"), .start (sampleIncoming, some "secret")] ++
  List.replicate 9 (.step 0 (sampleGatewayEnv 1)) ++ List.replicate 16 (.step 1 (sampleGatewayEnv 2)) ++
  List.replicate 9 (.step 0 (sampleGatewayEnv 3))

theorem quota_accounting_race :
    Always (gatewayNext sampleGatewayConfig) (fun s' => ∀ key ∈ sampleDailyDb.apiKeys.rows,
      ∀ q ∈ sampleDailyDb.quotas.rows, q.apiId = key.apiId →
      (counter sampleGatewayWorld (counterKey epoch key.id q.period) ≤ q.maxRequests →
        counter sampleGatewayWorld (counterKey epoch key.id q.period) +
          successes s' key.id ≤ q.maxRequests) ∧
      (s'.Quiet → counter s'.world (counterKey epoch key.id q.period) =
        counter sampleGatewayWorld (counterKey epoch key.id q.period) + successes s' key.id))
    (System.init sampleDailyDb sampleGatewayWorld) quotaRace :=
  quota_accounting sampleGatewayConfig epoch (System.init sampleDailyDb sampleGatewayWorld)
    quotaRace rfl
    (by decide +kernel)

/-- A call that is cancelled at the upstream. -/
def quotaCancelled : List (Event platformTables.backend (IncomingRequest × Option String)) :=
  .start (sampleIncoming, some "secret") ::
    List.replicate 18 (.step 0 { sampleGatewayEnv 1 with reply := ⟨.failure .cancelled, .ok ()⟩ })

/-- Its unit stays taken. -/
theorem quota_accounting_cancelled : ¬ ∀ (cfg : GatewayConfig) (t₀ : Time) (s : GatewaySystem)
    (es : List (Event platformTables.backend (IncomingRequest × Option String))) (_ : s.threads = [])
    (_ : Meets (gatewayNext cfg)
      (System.Regular { quotaLedger s.db t₀ (counter s.world) with ok := BeforeExpiry s.db t₀ }) s es),
    Always (gatewayNext cfg)
      (fun s' => ∀ key ∈ s.db.apiKeys.rows, ∀ q ∈ s.db.quotas.rows, q.apiId = key.apiId →
        (counter s.world (counterKey t₀ key.id q.period) ≤ q.maxRequests →
          counter s.world (counterKey t₀ key.id q.period) + successes s' key.id ≤ q.maxRequests) ∧
        (s'.Quiet → counter s'.world (counterKey t₀ key.id q.period) =
          counter s.world (counterKey t₀ key.id q.period) + successes s' key.id)) s es := by
  intro h
  have halways :=
    h sampleGatewayConfig epoch (System.init sampleDailyDb sampleGatewayWorld) quotaCancelled rfl
      (by decide +kernel)
  have hend := always_iff.1 halways quotaCancelled [] (List.append_nil _).symm _ List.mem_cons_self
    _ List.mem_cons_self rfl
  exact absurd (hend.2 (by decide +kernel)) (by decide +kernel)

end TrafficPlatform
