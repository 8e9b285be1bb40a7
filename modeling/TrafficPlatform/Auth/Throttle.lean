import TrafficPlatform.Auth
import TrafficPlatform.Kit.Interleave

/-!
# Lock-outs of the login throttle

`AuthThrottle.check` counts with `INCR` and lets the counter expire with a second command, which
only the call makes that read 1. Here the checks of many callers are interleaved, command by
command, and a call may be cut off between two of them. `lockouts_end` says when a lock-out ends.
-/

namespace TrafficPlatform
open Kit

namespace AuthThrottle

/-- The key of the counter. -/
def key (identity : String) : RedisKey := [.text "auth_throttle", .text identity]

/-- The rest of a check once the counter has its expiry. -/
def refuse (cfg : Config) (identity : String) (count : Int) : Auth Unit := do
  if count > cfg.authRateLimitPerMinute then
    let ttl ← redisTtl (key identity)
    .raise (ErrorClass.rateLimitedError.errorWith "Too many authentication attempts. Try again later."
      [("retry_after", .int (max ttl 1))])

/-- The rest of a check whose `INCR` returned `count`. -/
def counted (cfg : Config) (identity : String) (count : Int) : Auth Unit := do
  if count = 1 then redisExpire (key identity) windowSeconds
  refuse cfg identity count

section
variable {cfg : Config} {identity : String}

theorem check_eq : check cfg identity = redisIncr (key identity) >>= counted cfg identity := rfl

theorem counted_one : counted cfg identity 1 = redisExpire (key identity) windowSeconds >>=
    fun _ => refuse cfg identity 1 := rfl

theorem counted_of_ne {n : Int} (h : n ≠ 1) : counted cfg identity n = refuse cfg identity n := by
  unfold counted
  rw [if_neg h]

theorem refuse_of_le {n : Int} (h : n ≤ cfg.authRateLimitPerMinute) : refuse cfg identity n = .ret () :=
  if_neg (Int.not_lt.2 h)

theorem refuse_of_gt {n : Int} (h : cfg.authRateLimitPerMinute < n) : refuse cfg identity n =
    (redisTtl (key identity) >>= fun ttl => .raise (ErrorClass.rateLimitedError.errorWith
      "Too many authentication attempts. Try again later." [("retry_after", .int (max ttl 1))])) :=
        if_pos h

end

/-! ### The steps of a check -/

/-- The checks of many callers, interleaved. -/
abbrev Checks : Type 1 := System authTables.backend String Unit

abbrev Checks.next (cfg : Config) (s : Checks) (e : Event authTables.backend String) : Checks :=
  System.next (check cfg) s e

/-- A check before its `INCR`. -/
def waiting (cfg : Config) (identity : String) : Phase authTables.backend Unit :=
  .running (check cfg identity).commit [] []

/-- A check whose `INCR` returned 1, before its `EXPIRE`. -/
def creating (cfg : Config) (identity : String) : Phase authTables.backend Unit :=
  .running (counted cfg identity 1).commit [] []

/-- How far a check can be. -/
inductive Stage (cfg : Config) (identity : String) : Phase authTables.backend Unit → Prop
  | waiting : Stage cfg identity (waiting cfg identity)
  | creating : Stage cfg identity (creating cfg identity)
  | refusing (n : Int) : Stage cfg identity (.running (refuse cfg identity n).commit [] [])
  | raising (e : Failure) : Stage cfg identity (.running (.raise e) [] [])
  | returning : Stage cfg identity (.running (.ret ()) [] [])
  | committed : Stage cfg identity (.committed ())
  | rolledBack (e : Option Failure) : Stage cfg identity (.rolledBack e)

/-- The call at `i` is cut off between an `INCR` that returned 1 and its `EXPIRE`. -/
def CutsOff (cfg : Config) (identity : String) (s : Checks)
    (e : Event authTables.backend String) : Prop :=
  ∃ i, e = .crash i ∧ s.threads[i]? = some ⟨identity, creating cfg identity⟩

/-- What an event does to the checks in flight and to the counters. -/
inductive Turns (cfg : Config) (s : Checks) : Event authTables.backend String → Checks → Prop
  | none {e} : Turns cfg s e s
  | start (identity : String) :
    Turns cfg s (.start identity) { s with threads := s.threads ++ [⟨identity, waiting cfg identity⟩] }
  | crash {i : Nat} {identity : String} {ph : Phase authTables.backend Unit}
    (hi : s.threads[i]? = some ⟨identity, ph⟩) :
    Turns cfg s (.crash i) (s.put i identity (.rolledBack none))
  | incr {i : Nat} {identity : String} {env : Env Unit}
      (hi : s.threads[i]? = some ⟨identity, waiting cfg identity⟩)
      (hph : waiting cfg identity ≠ creating cfg identity) :
    Turns cfg s (.step i env)
      { s.put i identity (.running
          (counted cfg identity (World.incr (key identity) env s.world).1).commit [] []) with
        world := (World.incr (key identity) env s.world).2 }
  | expire {i : Nat} {identity : String} {env : Env Unit}
    (hi : s.threads[i]? = some ⟨identity, creating cfg identity⟩) :
    Turns cfg s (.step i env)
      { s.put i identity (.running (refuse cfg identity 1).commit [] []) with
        world := (World.expire (key identity) windowSeconds env s.world).2 }
  | finish {i : Nat} {identity : String} {ph ph' : Phase authTables.backend Unit} {env : Env Unit}
      {s' : Checks}
      (hi : s.threads[i]? = some ⟨identity, ph⟩) (hph : ph ≠ creating cfg identity)
      (hthreads : s'.threads = s.threads.set i ⟨identity, ph'⟩)
        (hredis : s'.world.redis = s.world.redis)
      (hclock : s.world.clock ≤ s'.world.clock) (hstage : Stage cfg identity ph') :
        Turns cfg s (.step i env) s'

variable {cfg : Config} {s s' : Checks} {e : Event authTables.backend String}

theorem next_running {i : Nat} {identity : String} {p : Auth Unit} {d w : List AuthOp}
    {env : Env Unit} (hi : s.threads[i]? = some ⟨identity, .running p d w⟩) :
        s.next cfg (.step i env) = s.advance i env identity p d w :=
  System.next_step hi env

theorem next_ended {i : Nat} {t : Thread authTables.backend String Unit} {env : Env Unit}
    (hi : s.threads[i]? = some t) (h : t.phase.Ended) : s.next cfg (.step i env) = s := by
  show System.next (check cfg) s (.step i env) = _
  unfold System.next
  obtain ⟨identity, ph⟩ := t
  cases ph with
  | running p d w => exact h.elim
  | committed a => simp only [hi]
  | rolledBack e => simp only [hi]

theorem turns (h : ∀ t ∈ s.threads, Stage cfg t.req t.phase) : Turns cfg s e (s.next cfg e) := by
  cases e with
  | start identity => exact .start identity
  | crash i =>
    show Turns cfg s _ (System.next (check cfg) s (.crash i))
    unfold System.next
    dsimp only
    split
    · rename_i r p d w hi
      exact .crash hi
    · exact .none
  | step i env =>
    cases hi : s.threads[i]? with
    | none =>
      have hsame : s.next cfg (.step i env) = s := by
        show System.next (check cfg) s (.step i env) = _
        unfold System.next
        simp only [hi]
      rw [hsame]
      exact .none
    | some t =>
      obtain ⟨identity, ph⟩ := t
      have hstage := h _ (List.mem_of_getElem? hi)
      dsimp only at hstage
      by_cases hcreating : ph = creating cfg identity
      · subst hcreating
        rw [creating] at hi
        rw [next_running hi]
        exact .expire hi
      · cases hstage with
        | waiting =>
          rw [waiting] at hi
          rw [next_running hi]
          exact .incr hi hcreating
        | creating => exact absurd rfl hcreating
        | refusing n =>
          rw [next_running hi]
          rcases Int.lt_or_le cfg.authRateLimitPerMinute n with hgt | hle
          · rw [refuse_of_gt hgt] at hi hcreating ⊢
            exact .finish hi hcreating rfl rfl (Nat.le_max_left _ _) (.raising _)
          · rw [refuse_of_le hle] at hi hcreating ⊢
            exact .finish hi hcreating rfl rfl le_rfl .returning
        | raising f =>
          rw [next_running hi]
          exact .finish hi hcreating rfl rfl le_rfl (.rolledBack _)
        | returning =>
          rw [next_running hi]
          exact .finish hi hcreating rfl rfl le_rfl .committed
        | committed =>
          rw [next_ended hi trivial]
          exact .none
        | rolledBack f =>
          rw [next_ended hi trivial]
          exact .none

/-! ### The expiry of the counter -/

/-- The counter expires within a window, or the check that created it is about to see to that. -/
def Expires (cfg : Config) (identity : String) (s : Checks) : Prop :=
  ∀ entry, s.world.redis (key identity) = some entry →
    (∃ t, entry.expiry = some t ∧ t ≤ s.world.clock + windowSeconds * second) ∨
      (entry.expiry = none ∧ ⟨identity, creating cfg identity⟩ ∈ s.threads)

structure Inv (cfg : Config) (identity : String) (s : Checks) : Prop where
  stages : ∀ t ∈ s.threads, Stage cfg t.req t.phase
  expires : Expires cfg identity s

theorem stage_counted (identity : String) (n : Int) :
    Stage cfg identity (.running (counted cfg identity n).commit [] []) := by
  by_cases h : n = 1
  · subst h
    exact .creating
  · rw [counted_of_ne h]
    exact .refusing n

theorem stages_next (h : ∀ t ∈ s.threads, Stage cfg t.req t.phase) : ∀ t ∈ (s.next cfg e).threads,
    Stage cfg t.req t.phase := by
  have hset : ∀ (i : Nat) (identity : String) (ph : Phase authTables.backend Unit),
      Stage cfg identity ph →
      ∀ t ∈ s.threads.set i ⟨identity, ph⟩, Stage cfg t.req t.phase := by
    intro i identity ph hph t ht
    rcases List.mem_or_eq_of_mem_set ht with ht | rfl
    · exact h t ht
    · exact hph
  have hturns := turns h (e := e)
  generalize s.next cfg e = s' at hturns
  cases hturns with
  | none => exact h
  | start identity => exact List.forall_mem_append.2 ⟨h, List.forall_mem_singleton.2 .waiting⟩
  | crash hi => exact hset _ _ _ (.rolledBack none)
  | incr hi => exact hset _ _ _ (stage_counted _ _)
  | expire hi => exact hset _ _ _ (.refusing 1)
  | finish hi hph hthreads hredis hclock hstage =>
    rw [hthreads]
    exact hset _ _ _ hstage

theorem mem_set_of_ne {i : Nat} {t u v : Thread authTables.backend String Unit}
    {threads : List (Thread authTables.backend String Unit)} (h : t ∈ threads)
    (hi : threads[i]? = some u) (hne : u ≠ t) : t ∈ threads.set i v := by
  obtain ⟨j, hj⟩ := List.mem_iff_getElem?.1 h
  refine List.mem_iff_getElem?.2 ⟨j, ?_⟩
  rw [List.getElem?_set_ne]
  · exact hj
  · rintro rfl
    exact hne (Option.some.inj (hi.symm.trans hj))

theorem key_ne {identity identity' : String} (h : identity ≠ identity') :
    key identity ≠ key identity' := by
  intro he
  unfold key at he
  simp only [List.cons.injEq, KeyPart.text.injEq, and_true, true_and] at he
  exact h he

theorem Expires.mono {identity : String} (h : Expires cfg identity s)
    (hredis : s'.world.redis (key identity) = s.world.redis (key identity))
    (hclock : s.world.clock ≤ s'.world.clock)
    (hthreads : ⟨identity, creating cfg identity⟩ ∈ s.threads → ⟨identity, creating cfg identity⟩ ∈
      s'.threads) :
    Expires cfg identity s' := by
  intro entry hentry
  rw [hredis] at hentry
  rcases h entry hentry with ⟨t, ht, hle⟩ | ⟨hnone, hmem⟩
  · exact .inl ⟨t, ht, hle.trans (Nat.add_le_add_right hclock _)⟩
  · exact .inr ⟨hnone, hthreads hmem⟩

theorem Inv.next {identity : String} (h : Inv cfg identity s) (hcut : ¬ CutsOff cfg identity s e) :
    Inv cfg identity (s.next cfg e) := by
  refine ⟨stages_next h.stages, ?_⟩
  have hturns := turns h.stages (e := e)
  generalize s.next cfg e = s' at hturns
  cases hturns with
  | none => exact h.expires
  | start identity' => exact h.expires.mono rfl le_rfl fun hmem => List.mem_append_left _ hmem
  | crash hi =>
    refine h.expires.mono rfl le_rfl fun hmem => mem_set_of_ne hmem hi fun he => hcut ⟨_, rfl, ?_⟩
    rw [hi, he]
  | @incr i identity' env hi hph =>
    by_cases hid : identity' = identity
    · subst hid
      intro entry hentry
      have hcount : (World.incr (key identity') env s.world).2.redis (key identity') =
          some ⟨(World.incr (key identity') env s.world).1,
            (s.world.redis.live (max s.world.clock env.time) (key identity')).bind (·.expiry)⟩ :=
              Store.set_self _
      obtain rfl := Option.some.inj (hcount.symm.trans hentry)
      cases hlive : s.world.redis.live (max s.world.clock env.time) (key identity') with
      | none =>
        -- the counter is new, and the check goes on with its expiry
        have hone : (World.incr (key identity') env s.world).1 = 1 := by
          unfold World.incr Store.get
          dsimp only
          rw [hlive]
          rfl
        refine .inr ⟨rfl, List.mem_iff_getElem?.2 ⟨i, ?_⟩⟩
        rw [hone]
        exact List.getElem?_set_self (List.getElem?_eq_some_iff.1 hi).1
      | some old =>
        rcases h.expires old (Store.eq_of_live hlive) with ⟨t, ht, hle⟩ | ⟨hnone, hmem⟩
        · exact .inl ⟨t, ht, hle.trans (Nat.add_le_add_right (Nat.le_max_left _ _) _)⟩
        · exact .inr ⟨hnone, mem_set_of_ne hmem hi fun he => hph (Thread.mk.inj he).2⟩
    · refine h.expires.mono (Store.set_of_ne (key_ne (Ne.symm hid)) _) (Nat.le_max_left _ _)
          fun hmem => mem_set_of_ne hmem hi ?_
      exact fun he => hid (congrArg Thread.req he)
  | @expire i identity' env hi =>
    by_cases hid : identity' = identity
    · subst hid
      intro entry hentry
      have hmap : (World.expire (key identity') windowSeconds env s.world).2.redis (key identity') =
          (s.world.redis.live (max s.world.clock env.time) (key identity')).map
            fun e => { e with
              expiry := some (max s.world.clock env.time + windowSeconds * second) } :=
          Store.expire_self _
      obtain ⟨old, -, rfl⟩ := Option.map_eq_some_iff.1 (hmap.symm.trans hentry)
      exact .inl ⟨_, rfl, le_rfl⟩
    · refine h.expires.mono (Store.expire_of_ne (key_ne (Ne.symm hid)) _) (Nat.le_max_left _ _)
        fun hmem => mem_set_of_ne hmem hi ?_
      exact fun he => hid (congrArg Thread.req he)
  | @finish i identity' ph ph' env s' hi hph hthreads hredis hclock hstage =>
    refine h.expires.mono (by rw [hredis]) hclock fun hmem => ?_
    rw [hthreads]
    refine mem_set_of_ne hmem hi fun he => ?_
    obtain ⟨rfl, rfl⟩ := Thread.mk.inj he
    exact hph rfl

/-! ### A pause -/

/-- No check of the identity has begun to count, and its counter expires by `bound`. -/
structure Idle (cfg : Config) (identity : String) (bound : Time) (s : Checks) : Prop where
  stages : ∀ t ∈ s.threads, Stage cfg t.req t.phase
  idle : ∀ t ∈ s.threads, t.req = identity → t.phase = waiting cfg identity ∨ t.phase.Ended
  expires : ∀ entry, s.world.redis (key identity) = some entry → ∃ t, entry.expiry = some t ∧ t ≤ bound

theorem Inv.idle {identity : String} (h : Inv cfg identity s)
    (hended : ∀ t ∈ s.threads, t.req = identity → t.phase.Ended) :
    Idle cfg identity (s.world.clock + windowSeconds * second) s := by
  refine ⟨h.stages, fun t ht hreq => .inr (hended t ht hreq), fun entry hentry => ?_⟩
  rcases h.expires entry hentry with hexpiry | ⟨-, hmem⟩
  · exact hexpiry
  · exact (hended _ hmem rfl).elim

/-- A command of a check for the identity. -/
def Counts (identity : String) (s : Checks) (e : Event authTables.backend String) : Prop :=
  ∃ i env t, e = .step i env ∧ s.threads[i]? = some t ∧ t.req = identity

theorem Idle.next {identity : String} {bound : Time} (h : Idle cfg identity bound s)
    (he : ¬ Counts identity s e) :
    Idle cfg identity bound (s.next cfg e) := by
  have hother : ∀ (i : Nat) (v : Thread authTables.backend String Unit), v.req ≠ identity →
      ∀ t ∈ s.threads.set i v, t.req = identity → t.phase = waiting cfg identity ∨ t.phase.Ended := by
    intro i v hv t ht hreq
    rcases List.mem_or_eq_of_mem_set ht with ht | rfl
    · exact h.idle t ht hreq
    · exact absurd hreq hv
  have hstages := stages_next h.stages (e := e)
  have hturns := turns h.stages (e := e)
  generalize s.next cfg e = s' at hturns hstages
  refine ⟨hstages, ?_, ?_⟩
  · cases hturns with
    | none => exact h.idle
    | start identity' =>
      refine List.forall_mem_append.2 ⟨h.idle, List.forall_mem_singleton.2 fun hreq => .inl ?_⟩
      obtain rfl : identity' = identity := hreq
      rfl
    | crash hi =>
      intro t ht hreq
      rcases List.mem_or_eq_of_mem_set ht with ht | rfl
      · exact h.idle t ht hreq
      · exact .inr trivial
    | incr hi => exact hother _ _ fun hreq => he ⟨_, _, _, rfl, hi, hreq⟩
    | expire hi => exact hother _ _ fun hreq => he ⟨_, _, _, rfl, hi, hreq⟩
    | finish hi hph hthreads =>
      rw [hthreads]
      exact hother _ _ fun hreq => he ⟨_, _, _, rfl, hi, hreq⟩
  · have hsame : s'.world.redis (key identity) = s.world.redis (key identity) := by
      cases hturns with
      | none => rfl
      | start identity' => rfl
      | crash hi => rfl
      | incr hi => exact Store.set_of_ne (key_ne fun hreq => he ⟨_, _, _, rfl, hi, hreq.symm⟩) _
      | expire hi => exact Store.expire_of_ne (key_ne fun hreq => he ⟨_, _, _, rfl, hi, hreq.symm⟩) _
      | finish hi hph hthreads hredis => rw [hredis]
    rw [hsame]
    exact h.expires

/-! ### The next check -/

/-- A check that was the first one of its window and does not raise. -/
inductive Passing (cfg : Config) (identity : String) : Phase authTables.backend Unit → Prop
  | creating : Passing cfg identity (creating cfg identity)
  | flushing : Passing cfg identity (.running (.flush (.ret ())) [] [])
  | returning : Passing cfg identity (.running (.ret ()) [] [])
  | committed : Passing cfg identity (.committed ())
  | cutOff : Passing cfg identity (.rolledBack none)

theorem Passing.next {identity : String} {i : Nat} {ph : Phase authTables.backend Unit}
    (hlimit : 1 ≤ cfg.authRateLimitPerMinute) (hstages : ∀ t ∈ s.threads, Stage cfg t.req t.phase)
    (hi : s.threads[i]? = some ⟨identity, ph⟩) (h : Passing cfg identity ph) :
    ∃ ph', (s.next cfg e).threads[i]? = some ⟨identity, ph'⟩ ∧ Passing cfg identity ph' := by
  have hlt : i < s.threads.length := (List.getElem?_eq_some_iff.1 hi).1
  by_cases hstep : ∃ env, e = .step i env
  · obtain ⟨env, rfl⟩ := hstep
    cases h with
    | creating =>
      rw [AuthThrottle.creating] at hi
      rw [next_running hi]
      refine ⟨_, List.getElem?_set_self hlt, ?_⟩
      rw [refuse_of_le hlimit]
      exact .flushing
    | flushing =>
      rw [next_running hi]
      exact ⟨_, List.getElem?_set_self hlt, .returning⟩
    | returning =>
      rw [next_running hi]
      exact ⟨_, List.getElem?_set_self hlt, .committed⟩
    | committed =>
      rw [next_ended hi trivial]
      exact ⟨_, hi, .committed⟩
    | cutOff =>
      rw [next_ended hi trivial]
      exact ⟨_, hi, .cutOff⟩
  · have hother : ∀ (j : Nat) (t : Thread authTables.backend String Unit), j ≠ i →
        (s.threads.set j t)[i]? = some ⟨identity, ph⟩ :=
      fun j t hj => (List.getElem?_set_ne hj).trans hi
    have hturns := turns hstages (e := e)
    generalize s.next cfg e = s' at hturns
    cases hturns with
    | none => exact ⟨ph, hi, h⟩
    | start identity' => exact ⟨ph, (List.getElem?_append_left hlt).trans hi, h⟩
    | @crash j identity' ph' hj =>
      by_cases hji : j = i
      · subst hji
        obtain ⟨rfl, rfl⟩ := Thread.mk.inj (Option.some.inj (hj.symm.trans hi))
        exact ⟨_, List.getElem?_set_self hlt, .cutOff⟩
      · exact ⟨ph, hother j _ hji, h⟩
    | @incr j _ env => exact ⟨ph, hother j _ fun hji => hstep ⟨env, by rw [hji]⟩, h⟩
    | @expire j _ env => exact ⟨ph, hother j _ fun hji => hstep ⟨env, by rw [hji]⟩, h⟩
    | @finish j _ _ _ env _ hj hph hthreads =>
      rw [hthreads]
      exact ⟨ph, hother j _ fun hji => hstep ⟨env, by rw [hji]⟩, h⟩

/-- The checks before the first one. -/
def start (db : AuthDb) (clock : Time) : Checks := System.init db ⟨clock, 0, Store.empty, []⟩

variable {identity : String} {before pause rest : List (Event authTables.backend String)}

theorem inv_run {es : List (Event authTables.backend String)} (h : Inv cfg identity s)
    (hcut : Meets (Checks.next cfg) (fun s e => ¬ CutsOff cfg identity s e) s es) :
        Inv cfg identity (run (Checks.next cfg) s es) := by
  induction es generalizing s with
  | nil => exact h
  | cons e es ih => exact ih (h.next hcut.1) hcut.2

theorem idle_run {bound : Time} {es : List (Event authTables.backend String)}
    (h : Idle cfg identity bound s)
    (hpause : Meets (Checks.next cfg) (fun s e => ¬ Counts identity s e) s es) :
    Idle cfg identity bound (run (Checks.next cfg) s es) := by
  induction es generalizing s with
  | nil => exact h
  | cons e es ih => exact ih (h.next hpause.1) hpause.2

theorem passing_run {i : Nat} {ph : Phase authTables.backend Unit}
    {es : List (Event authTables.backend String)} (hlimit : 1 ≤ cfg.authRateLimitPerMinute)
    (hstages : ∀ t ∈ s.threads, Stage cfg t.req t.phase) (hi : s.threads[i]? = some ⟨identity, ph⟩)
    (h : Passing cfg identity ph) :
    ∃ ph', (run (Checks.next cfg) s es).threads[i]? = some ⟨identity, ph'⟩ ∧
        Passing cfg identity ph' := by
  induction es generalizing s ph with
  | nil => exact ⟨ph, hi, h⟩
  | cons e es ih =>
    obtain ⟨ph', hi', h'⟩ := h.next (e := e) hlimit hstages hi
    exact ih (stages_next hstages) hi' h'

/-- The check that counts after the counter has expired is the first one of a window. -/
theorem Idle.counts {bound : Time} {i : Nat} {env : Env Unit}
    {t : Thread authTables.backend String Unit} (h : Idle cfg identity bound s)
    (hi : s.threads[i]? = some t) (hreq : t.req = identity) (hrunning : ¬ t.phase.Ended)
    (hlate : bound < max s.world.clock env.time) :
    (s.next cfg (.step i env)).threads[i]? = some ⟨identity, creating cfg identity⟩ := by
  obtain ⟨identity', ph⟩ := t
  obtain rfl : identity' = identity := hreq
  obtain rfl : ph = waiting cfg identity' :=
    (h.idle _ (List.mem_of_getElem? hi) rfl).resolve_right hrunning
  have hdead : s.world.redis.live (max s.world.clock env.time) (key identity') = none := by
    cases hentry : s.world.redis (key identity') with
    | none => exact Store.live_of_none hentry
    | some entry =>
      obtain ⟨t, ht, hle⟩ := h.expires entry hentry
      exact Store.live_expired hentry ht (lt_of_le_of_lt hle hlate)
  have hone : (World.incr (key identity') env s.world).1 = 1 := by
    unfold World.incr Store.get
    dsimp only
    rw [hdead]
    rfl
  rw [waiting] at hi
  rw [next_running hi]
  refine (List.getElem?_set_self (List.getElem?_eq_some_iff.1 hi).1).trans ?_
  show some (⟨identity',
    .running (counted cfg identity' (World.incr (key identity') env s.world).1).commit [] []⟩ :
    Thread authTables.backend String Unit) = _
  rw [hone]
  rfl

/-- Lock-outs end: if no check for the identity was cut off between an `INCR` that returned 1 and
its `EXPIRE`, and after the last one ended no check counts for longer than a window, then the next
one that counts does not raise, whatever checks of this and other identities go on. -/
theorem lockouts_end (cfg : Config) (hlimit : 1 ≤ cfg.authRateLimitPerMinute) (identity : String)
    (db : AuthDb) (clock : Time)
    (before pause rest : List (Event authTables.backend String))
    (hcut : Meets (Checks.next cfg) (fun s e => ¬ CutsOff cfg identity s e) (start db clock) before)
    (hended : ∀ t ∈ (run (Checks.next cfg) (start db clock) before).threads, t.req = identity →
      t.phase.Ended)
    (hpause : Meets (Checks.next cfg) (fun s e => ¬ Counts identity s e)
      (run (Checks.next cfg) (start db clock) before) pause)
    (i : Nat) (env : Env Unit) (t : Thread authTables.backend String Unit)
    (hi : (run (Checks.next cfg) (start db clock) (before ++ pause)).threads[i]? = some t)
    (hreq : t.req = identity)
    (hrunning : ¬ t.phase.Ended)
    (hlong : (run (Checks.next cfg) (start db clock) before).world.clock + windowSeconds * second <
      max (run (Checks.next cfg) (start db clock) (before ++ pause)).world.clock env.time) :
    ∃ ph, (run (Checks.next cfg) (start db clock)
      (before ++ pause ++ .step i env :: rest)).threads[i]? = some ⟨identity, ph⟩ ∧
      ∀ e, ph ≠ .rolledBack (some e) := by
  have hstart : Inv cfg identity (start db clock) :=
    ⟨fun t ht => absurd ht List.not_mem_nil, fun entry hentry => by cases hentry⟩
  rw [run_append] at hi hlong
  have hidle := idle_run ((inv_run hstart hcut).idle hended) hpause
  have hcreating := hidle.counts hi hreq hrunning hlong
  rw [run_append, run_append, run_cons]
  obtain ⟨ph, hph, hpassing⟩ :=
    @passing_run _ _ _ _ _ rest hlimit (stages_next hidle.stages) hcreating .creating
  refine ⟨ph, hph, fun e he => ?_⟩
  subst he
  cases hpassing

/-- A configuration in which one attempt a minute is allowed. -/
def sampleStrict : Config := { sampleConfig with authRateLimitPerMinute := 1 }

def at_ (n : Nat) : Env Unit := ⟨n * second, "", 0, ()⟩

/-- A check that is made to its end, and the next one after 61 seconds. -/
theorem lockouts_end_sample : ∃ ph, (run (Checks.next sampleStrict) (start sampleDb 0)
    ([.start "x", .step 0 (at_ 0), .step 0 (at_ 0), .step 0 (at_ 0), .step 0 (at_ 0)] ++ [.start "x"] ++
      [.step 1 (at_ 61), .step 1 (at_ 61)])).threads[1]? = some ⟨"x", ph⟩ ∧
    ∀ e, ph ≠ .rolledBack (some e) := by
  refine lockouts_end sampleStrict (by decide) "x" sampleDb 0 _ _ _ ?_ ?_ ?_ 1 (at_ 61)
    ⟨"x", waiting sampleStrict "x"⟩ ?_ rfl id ?_
  · simp [Meets, CutsOff]
  · intro t ht _
    obtain rfl : t = ⟨"x", .committed ()⟩ := List.mem_singleton.1 ht
    trivial
  · simp [Meets, Counts]
  · rfl
  · decide +kernel

/-- A check is cut off after its `INCR`. An hour later the next one raises. -/
theorem lockout_forever : ¬ ∀ (cfg : Config), 1 ≤ cfg.authRateLimitPerMinute →
    ∀ (identity : String) (db : AuthDb) (clock : Time)
    (before pause rest : List (Event authTables.backend String)),
    (∀ t ∈ (run (Checks.next cfg) (start db clock) before).threads, t.req = identity → t.phase.Ended) →
    Meets (Checks.next cfg) (fun s e => ¬ Counts identity s e)
      (run (Checks.next cfg) (start db clock) before) pause →
    ∀ (i : Nat) (env : Env Unit) (t : Thread authTables.backend String Unit),
    (run (Checks.next cfg) (start db clock) (before ++ pause)).threads[i]? = some t →
      t.req = identity → ¬ t.phase.Ended →
    (run (Checks.next cfg) (start db clock) before).world.clock + windowSeconds * second <
      max (run (Checks.next cfg) (start db clock) (before ++ pause)).world.clock env.time →
    ∃ ph, (run (Checks.next cfg) (start db clock)
      (before ++ pause ++ .step i env :: rest)).threads[i]? = some ⟨identity, ph⟩ ∧
      ∀ e, ph ≠ .rolledBack (some e) := by
  intro h
  obtain ⟨ph, hph, hraise⟩ :=
    h sampleStrict (by decide) "x" sampleDb 0 [.start "x", .step 0 (at_ 0), .crash 0] [.start "x"]
    [.step 1 (at_ 3600), .step 1 (at_ 3600)] (by
      intro t ht _
      obtain rfl : t = ⟨"x", .rolledBack none⟩ := List.mem_singleton.1 ht
      trivial) (by simp [Meets, Counts]) 1 (at_ 3600) ⟨"x", waiting sampleStrict "x"⟩ rfl rfl id (by decide +kernel)
  have hraised :
      (run (Checks.next sampleStrict) (start sampleDb 0)
        ([.start "x", .step 0 (at_ 0), .crash 0] ++ [.start "x"] ++
      [.step 1 (at_ 3600), .step 1 (at_ 3600), .step 1 (at_ 3600)])).threads[1]? = some ⟨"x",
        .rolledBack (some
        (ErrorClass.rateLimitedError.errorWith "Too many authentication attempts. Try again later."
          [("retry_after", .int 1)]))⟩ := rfl
  exact hraise _ (Thread.mk.inj (Option.some.inj (hph.symm.trans hraised))).2

end AuthThrottle

end TrafficPlatform
