import TrafficPlatform.Basic
import TrafficPlatform.Kit.Request
import TrafficPlatform.Kit.Expiring
import TrafficPlatform.Kit.Table
import Mathlib.Order.Nat

/-!
# What every request of the platform shares

The errors that leave a handler (`app/core/errors.py`), the part of the world that handlers use
outside the database (one clock, the source of UUIDs, the Redis counters) and the backend
that a group of tables makes with it.
-/

namespace TrafficPlatform
open Kit

/-! ### Errors -/

/-- A value in the `details` of an error. -/
inductive Detail
  | int (n : Int)
  | text (s : String)
deriving DecidableEq, Repr

/-- The subclasses of `AppError`. -/
inductive ErrorClass
  | appError
  | notFoundError
  | conflictError
  | validationAppError
  | authenticationError
  | permissionDeniedError
  | rateLimitedError
  | quotaExceededError
  | upstreamError
deriving DecidableEq, Repr

namespace ErrorClass

def statusCode : ErrorClass → Nat
  | appError => 400
  | notFoundError => 404
  | conflictError => 409
  | validationAppError => 422
  | authenticationError => 401
  | permissionDeniedError => 403
  | rateLimitedError => 429
  | quotaExceededError => 429
  | upstreamError => 502

def code : ErrorClass → String
  | appError => "bad_request"
  | notFoundError => "not_found"
  | conflictError => "conflict"
  | validationAppError => "validation_error"
  | authenticationError => "unauthenticated"
  | permissionDeniedError => "permission_denied"
  | rateLimitedError => "rate_limited"
  | quotaExceededError => "quota_exceeded"
  | upstreamError => "upstream_error"

end ErrorClass

/-- An `AppError`: its class, code, message and details. -/
structure AppError where
  cls : ErrorClass
  code : String
  message : String
  details : List (String × Detail)
deriving DecidableEq, Repr

/-- What a handler raises: an `AppError`, an error of the database session (a violated constraint,
an update that finds its row gone), the cancellation of its task, or another exception. -/
inductive Failure
  | app (e : AppError)
  | integrityError
  | staleDataError
  | cancelled
  | other (what : String)
deriving DecidableEq, Repr

/-- `except Exception` catches it; `CancelledError` is no `Exception`. -/
def Failure.isException (e : Failure) : Bool := e != .cancelled

/-- `raise Cls("message")`, with the class's own code. -/
def ErrorClass.error (cls : ErrorClass) (message : String) : Failure :=
  .app ⟨cls, cls.code, message, []⟩

/-- `raise Cls("message", details=…)`. -/
def ErrorClass.errorWith (cls : ErrorClass) (message : String) (details : List (String × Detail)) :
    Failure :=
  .app ⟨cls, cls.code, message, details⟩

/-! ### The world -/

/-- A colon-separated part of a Redis key. -/
inductive KeyPart
  | text (s : String)
  | uuid (id : Uuid)
  | number (n : Nat)
deriving DecidableEq, Repr

abbrev RedisKey := List KeyPart

/-- The last clock reading, a bound on the UUIDs handed out so far, the Redis counters, and what a
group of handlers has outside (sent mails, contacted servers). -/
structure World (X : Type) where
  clock : Time
  supply : Uuid
  redis : Store RedisKey Int Time
  outside : X

/-- What an `io` step reads from outside: a clock reading (the clock never goes back), a random
string and number, and the reply of whatever is outside. -/
structure Env (I : Type) where
  time : Time
  text : String
  number : Nat
  reply : I

namespace World

variable {X I : Type}

def readClock (env : Env I) (w : World X) : Time × World X :=
  (max w.clock env.time, { w with clock := max w.clock env.time })

/-- `uuid.uuid4()`: any value that was never handed out before. -/
def uuid4 (env : Env I) (w : World X) : Uuid × World X :=
  (max w.supply env.number, { w with supply := max w.supply env.number + 1 })

/-- `secrets.token_urlsafe` and the salt of a password hash. -/
def random (env : Env I) (w : World X) : String × World X := (env.text, w)

/-- `INCR`. -/
def incr (key : RedisKey) (env : Env I) (w : World X) : Int × World X :=
  let now := max w.clock env.time
  let n := (w.redis.get now key).getD 0 + 1
  (n, { w with clock := now, redis := w.redis.set now key n })

/-- `DECR`. -/
def decr (key : RedisKey) (env : Env I) (w : World X) : Int × World X :=
  let now := max w.clock env.time
  let n := (w.redis.get now key).getD 0 - 1
  (n, { w with clock := now, redis := w.redis.set now key n })

/-- `EXPIRE key seconds`. -/
def expire (key : RedisKey) (seconds : Nat) (env : Env I) (w : World X) : Unit × World X :=
  let now := max w.clock env.time
  ((), { w with clock := now, redis := w.redis.expire now key (now + seconds * second) })

/-- `TTL key`: the remaining seconds, `-2` without the key and `-1` without an expiry. -/
def ttl (key : RedisKey) (env : Env I) (w : World X) : Int × World X :=
  let now := max w.clock env.time
  let left := match w.redis.live now key with
    | none => -2
    | some e => match e.expiry with
      | none => -1
      | some t => (((t - now + second / 2) / second : Nat) : Int)
  (left, { w with clock := now })

end World

/-! ### Backends -/

/-- A group of tables: the database, its row writes and what they lock, and what its handlers have
outside. -/
structure Tables where
  Outside : Type
  Input : Type
  Db : Type
  Op : Type
  Key : Type
  apply : Op → Db → Db
  check : Op → Db → Except Failure Unit
  keys : Op → List Key

/-- The tables with the platform's world and errors. -/
abbrev Tables.backend (T : Tables) : Backend where
  Db := T.Db
  World := World T.Outside
  Env := Env T.Input
  Err := Failure
  Op := T.Op
  Key := T.Key
  apply := T.apply
  check := T.check
  keys := T.keys

variable {T : Tables}

/-- `datetime.now(UTC)`. -/
def now : Prog T.backend Time := Prog.ask World.readClock

def uuid4 : Prog T.backend Uuid := Prog.ask World.uuid4

def random : Prog T.backend String := Prog.ask World.random

def redisIncr (key : RedisKey) : Prog T.backend Int := Prog.ask (World.incr key)

def redisDecr (key : RedisKey) : Prog T.backend Int := Prog.ask (World.decr key)

def redisExpire (key : RedisKey) (seconds : Nat) : Prog T.backend Unit :=
  Prog.ask (World.expire key seconds)

def redisTtl (key : RedisKey) : Prog T.backend Int := Prog.ask (World.ttl key)

/-- The clock does not go back. -/
def World.ClockLe {X : Type} (w w' : World X) : Prop := w.clock ≤ w'.clock

theorem World.ClockLe.refl {X : Type} (w : World X) : w.ClockLe w := Nat.le_refl _

theorem World.ClockLe.trans {X : Type} (a b c : World X) (h : a.ClockLe b) (h' : b.ClockLe c) :
    a.ClockLe c := Nat.le_trans h h'

theorem within_now : (now : Prog T.backend Time).Within World.ClockLe :=
  Prog.within_ask fun _ _ => Nat.le_max_left _ _

theorem within_uuid4 : (uuid4 : Prog T.backend Uuid).Within World.ClockLe :=
  Prog.within_ask fun _ _ => Nat.le_refl _

theorem within_random : (random : Prog T.backend String).Within World.ClockLe :=
  Prog.within_ask fun _ _ => Nat.le_refl _

theorem within_redisIncr (key : RedisKey) : (redisIncr key : Prog T.backend Int).Within World.ClockLe :=
  Prog.within_ask fun _ _ => Nat.le_max_left _ _

theorem within_redisExpire (key : RedisKey) (n : Nat) :
    (redisExpire key n : Prog T.backend Unit).Within World.ClockLe :=
  Prog.within_ask fun _ _ => Nat.le_max_left _ _

theorem within_redisTtl (key : RedisKey) : (redisTtl key : Prog T.backend Int).Within World.ClockLe :=
  Prog.within_ask fun _ _ => Nat.le_max_left _ _

end TrafficPlatform
