import TrafficPlatform.Kit.Double
import TrafficPlatform.Site

/-!
# Rate limiters

`app/services/rate_limit`: three strategies, each a Lua script that Redis runs atomically on one key.
`time.time()` is read in the application before the script runs, so a script sees two clocks: the
argument it is given and Redis's own, which only drops expired keys. The token bucket computes in
floating point; `fl` is what an operation makes of its exact result, `Double.round` when the limiter
runs and `id` where it is studied in exact arithmetic.
-/

namespace TrafficPlatform
open Kit

inductive RateLimitAlgorithm
  | fixedWindow
  | slidingWindow
  | tokenBucket
deriving DecidableEq, Repr

structure RateLimitSpec where
  requests : Int
  windowSeconds : Int
  burst : Option Int
deriving DecidableEq, Repr

structure RateLimitResult where
  allowed : Bool
  limit : Int
  remaining : Int
  retryAfter : Int
deriving DecidableEq, Repr

/-- What `RateLimitConfig` checks of a rule. -/
structure RateLimitSpec.Valid (spec : RateLimitSpec) : Prop where
  requests_pos : 0 < spec.requests
  window_pos : 0 < spec.windowSeconds
  burst_pos : ∀ b, spec.burst = some b → 0 < b

/-- A rule that is stored: its fields are `Integer` columns. -/
structure RateLimitSpec.Stored (spec : RateLimitSpec) : Prop extends spec.Valid where
  requests_lt : spec.requests < 2 ^ 31
  window_lt : spec.windowSeconds < 2 ^ 31
  burst_lt : ∀ b, spec.burst = some b → b < 2 ^ 31

/-- Redis's clock, in milliseconds. -/
abbrev Millis := Int

/-- `int(x)`. -/
def pyInt (x : ℚ) : Int := if 0 ≤ x then ⌊x⌋ else ⌈x⌉

def msToSecondsCeil (ms : Int) : Int := max 0 (-((-ms) / 1000))

/-! ### Redis -/

section
variable {ν : Type} {s : Store RedisKey ν Millis} {key : RedisKey} {time : Millis}

/-- `PEXPIRE`; a key whose time to live is not positive is deleted. -/
def pexpire (time : Millis) (key : RedisKey) (ms : Int) (s : Store RedisKey ν Millis) :
    Store RedisKey ν Millis :=
  if 0 < ms then s.expire time key (time + ms) else s.erase key

/-- `PTTL`: the remaining milliseconds, `-2` without the key and `-1` without an expiry. -/
def pttl (time : Millis) (key : RedisKey) (s : Store RedisKey ν Millis) : Int :=
  match s.live time key with
  | none => -2
  | some e => match e.expiry with
    | none => -1
    | some t => t - time

theorem pexpire_set (v : ν) {ms : Int} (h : 0 < ms) :
    (pexpire time key ms (s.set time key v)) key = some ⟨v, some (time + ms)⟩ := by
  rw [pexpire, if_pos h, Store.expire_self, Store.live_set_self]
  rfl

end

/-- The hash of a token bucket. -/
structure TokenHash where
  tokens : ℚ
  ts : ℚ
deriving DecidableEq

/-- A member of a sorted set, `f"{now_ms}-{perf_counter_ns}"`. -/
abbrev Member := Int × Nat

/-- The keys of the limiters: those of one prefix hold values of one type. -/
structure LimiterStore where
  counters : Store RedisKey Int Millis
  zsets : Store RedisKey (List (Int × Member)) Millis
  hashes : Store RedisKey TokenHash Millis

def LimiterStore.empty : LimiterStore := ⟨Store.empty, Store.empty, Store.empty⟩

/-! ### The scripts

Each returns `{allowed, remaining, retry_after_ms}`. -/

def fixedWindowLua (key : RedisKey) (limit window : Int) (time : Millis)
    (s : Store RedisKey Int Millis) :
    (Int × Int × Int) × Store RedisKey Int Millis :=
  let current := (s.get time key).getD 0 + 1
  let s := s.set time key current
  let s := if current = 1 then pexpire time key (window * 1000) s else s
  let ttl := pttl time key s
  if current > limit then ((0, 0, ttl), s) else ((1, limit - current, 0), s)

/-- `ZREMRANGEBYSCORE key 0 max`. -/
def zremrangebyscore (max : Int) (entries : List (Int × Member)) : List (Int × Member) :=
  entries.filter fun e => !(decide (0 ≤ e.1) && decide (e.1 ≤ max))

/-- `ZADD`: a member that is there gets the new score. -/
def zadd (score : Int) (member : Member) (entries : List (Int × Member)) : List (Int × Member) :=
  entries.filter (fun e => e.2 != member) ++ [(score, member)]

/-- A sorted set without members is no key. -/
def putZset (time : Millis) (key : RedisKey) (entries : List (Int × Member))
    (s : Store RedisKey (List (Int × Member)) Millis) : Store RedisKey (List (Int × Member)) Millis :=
  if entries.isEmpty then s.erase key else s.set time key entries

def slidingWindowLua (key : RedisKey) (limit windowMs nowMs : Int) (member : Member) (time : Millis)
    (s : Store RedisKey (List (Int × Member)) Millis) :
    (Int × Int × Int) × Store RedisKey (List (Int × Member)) Millis :=
  let entries := zremrangebyscore (nowMs - windowMs) ((s.get time key).getD [])
  let s := putZset time key entries s
  let count : Int := entries.length
  if count < limit then
    ((1, limit - count - 1, 0), pexpire time key windowMs (s.set time key (zadd nowMs member entries)))
  else
    let retry := match (entries.map (·.1)).min? with
      | some oldest => oldest + windowMs - nowMs
      | none => windowMs
    ((0, 0, retry), s)

def tokenBucketLua (fl : ℚ → ℚ) (key : RedisKey) (capacity refillRate now : ℚ) (ttlMs : Int)
    (time : Millis)
    (s : Store RedisKey TokenHash Millis) : (Int × Int × Int) × Store RedisKey TokenHash Millis :=
  let data := (s.get time key).getD ⟨capacity, now⟩
  let delta := max 0 (fl (now - data.ts))
  let tokens := min capacity (fl (data.tokens + fl (delta * refillRate)))
  let (allowed, tokens, retry) :=
    if 1 ≤ tokens then (1, fl (tokens - 1), 0)
    else (0, tokens, ⌈fl (fl (fl (1 - tokens) / refillRate) * 1000)⌉)
  ((allowed, ⌊tokens⌋, retry), pexpire time key ttlMs (s.set time key ⟨tokens, now⟩))

/-!
### The strategies

`now` is the time of the call of `time.time()`, `time` Redis's clock when the script runs. The token
bucket computes with the reading, a floating-point number; of `time.time() * 1000` only the whole
milliseconds count.
-/

def FixedWindowLimiter.check (key : RedisKey) (spec : RateLimitSpec) (time : Millis)
    (s : LimiterStore) :
    RateLimitResult × LimiterStore :=
  let ((allowed, remaining, retryMs), counters) :=
    fixedWindowLua (.text "rl" :: .text "fw" :: key) spec.requests spec.windowSeconds time s.counters
  (⟨allowed != 0, spec.requests, remaining, msToSecondsCeil retryMs⟩, { s with counters })

def SlidingWindowLimiter.check (key : RedisKey) (spec : RateLimitSpec) (now : ℚ)
    (perfCounterNs : Nat) (time : Millis) (s : LimiterStore) : RateLimitResult × LimiterStore :=
  let nowMs := pyInt (now * 1000)
  let ((allowed, remaining, retryMs), zsets) :=
    slidingWindowLua (.text "rl" :: .text "sw" :: key) spec.requests (spec.windowSeconds * 1000) nowMs
      (nowMs, perfCounterNs) time s.zsets
  (⟨allowed != 0, spec.requests, max 0 remaining, msToSecondsCeil retryMs⟩, { s with zsets })

/-- `spec.burst or spec.requests`. -/
def RateLimitSpec.capacity (spec : RateLimitSpec) : Int :=
  match spec.burst with
  | some b => if b = 0 then spec.requests else b
  | none => spec.requests

def RateLimitSpec.refillRate (fl : ℚ → ℚ) (spec : RateLimitSpec) : ℚ :=
  fl (spec.requests / spec.windowSeconds)

/-- The time to live of a bucket: long enough to refill it from empty. -/
def RateLimitSpec.ttlMs (fl : ℚ → ℚ) (spec : RateLimitSpec) : Int :=
  pyInt (fl (fl (fl spec.capacity / spec.refillRate fl) * 1000)) + 1000

def TokenBucketLimiter.check (fl : ℚ → ℚ) (key : RedisKey) (spec : RateLimitSpec) (now : ℚ)
    (time : Millis) (s : LimiterStore) : Except Failure (RateLimitResult × LimiterStore) :=
  if spec.windowSeconds = 0 ∨ spec.refillRate fl = 0 then .error (.other "ZeroDivisionError")
  else
    let ((allowed, remaining, retryMs), hashes) :=
      tokenBucketLua fl (.text "rl" :: .text "tb" :: key) (fl spec.capacity)
        (spec.refillRate fl) (fl now)
        (spec.ttlMs fl) time s.hashes
    .ok (⟨allowed != 0, spec.capacity, remaining, msToSecondsCeil retryMs⟩, { s with hashes })

/-- `get_limiter(algorithm).check(…)`. -/
def RateLimitAlgorithm.check (fl : ℚ → ℚ) (algorithm : RateLimitAlgorithm) (key : RedisKey)
    (spec : RateLimitSpec) (now : ℚ) (perfCounterNs : Nat) (time : Millis) (s : LimiterStore) :
    Except Failure (RateLimitResult × LimiterStore) :=
  match algorithm with
  | .fixedWindow => .ok (FixedWindowLimiter.check key spec time s)
  | .slidingWindow => .ok (SlidingWindowLimiter.check key spec now perfCounterNs time s)
  | .tokenBucket => TokenBucketLimiter.check fl key spec now time s

end TrafficPlatform
