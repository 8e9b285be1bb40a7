import TrafficPlatform.Basic

/-!
# Settings and security primitives

The settings that the services read (`app/core/config.py`) and the primitives of
`app/core/security.py`. The hash functions come from third-party code and are fields of `Config`. A
JWT is either signed with the configured secret, and then carries the claims that were signed, or
it is not, and then `jwt.decode` rejects it.
-/

namespace TrafficPlatform

/-- The settings, with the defaults of `Settings`. -/
structure Settings where
  accessTokenTtlSeconds : Nat := 900
  refreshTokenTtlSeconds : Nat := 1209600
  authRateLimitPerMinute : Int := 10

/-- The settings and the functions that third-party code provides: SHA-256 (as a hex string),
Argon2 (of a salt and a password) and the lower-casing of strings. -/
structure Config extends Settings where
  hashToken : String → String
  hashPassword : String → String → String
  verifyPassword : String → String → Bool
  passwordNeedsRehash : String → Bool
  lower : String → String

/-- `hash_token(password_hash)[:16]`, which binds a reset token to the password it resets. -/
def Config.fingerprint (cfg : Config) (passwordHash : String) : String :=
  String.ofList ((cfg.hashToken passwordHash).toList.take 16)

/-! ### JWT -/

/-- A value in the payload of a JWT; `uuid` is the text of a UUID. -/
inductive Claim
  | text (s : String)
  | uuid (id : Uuid)
  | number (n : Int)
  | orgRoles (roles : List (Uuid × String))
deriving DecidableEq, Repr

/-- A payload: a dict. -/
abbrev Claims := List (String × Claim)

namespace Claims

/-- `claims.get(key)`. -/
def get (c : Claims) (key : String) : Option Claim := (c.find? fun e => e.1 == key).map (·.2)

/-- `claims[key] = value`. -/
def set (c : Claims) (key : String) (value : Claim) : Claims :=
  if c.any fun e => e.1 == key then c.map fun e => if e.1 == key then (key, value) else e
  else c ++ [(key, value)]

/-- `claims.update(extra)`. -/
def update (c extra : Claims) : Claims := extra.foldl (fun c e => c.set e.1 e.2) c

end Claims

/-- A string presented as a JWT. -/
inductive Jwt
  | signed (claims : Claims)
  | other (s : String)
deriving DecidableEq, Repr

/-- The `jwt.PyJWTError` of a rejected token. -/
inductive PyJWTError
  | decodeError
  | missingRequiredClaim
  | immatureSignature
  | expiredSignature
  | invalidToken
deriving DecidableEq, Repr

/-- The checks of the payload: `sub` is a string, `iat` is not in the future, `exp` is. The current
time has microseconds, the claims are whole seconds. -/
def validateClaims (now : Time) (claims : Claims) : Except PyJWTError Unit := do
  match claims.get "sub" with
    | some (.text _) | some (.uuid _) => pure ()
    | _ => throw .invalidToken
  match claims.get "iat" with
    | none => pure ()
    | some (.number iat) => if iat * second > (now : Int) - epoch then throw .immatureSignature
    | _ => throw .invalidToken
  match claims.get "exp" with
    | some (.number exp) => if exp * second ≤ (now : Int) - epoch then throw .expiredSignature
    | _ => throw .invalidToken

/-- `jwt.decode` at time `now` with `require: exp, sub, type`. -/
def Jwt.decode (now : Time) : Jwt → Except PyJWTError Claims
  | .other _ => .error .decodeError
  | .signed claims => do
    if ["exp", "sub", "type"].any fun key => (claims.get key).isNone then throw .missingRequiredClaim
    validateClaims now claims
    return claims

/-- The payload of an access token made at `now`. -/
def createAccessToken (cfg : Config) (subject : Uuid) (extraClaims : Claims) (now : Time)
    (jti : Uuid) : Jwt :=
  .signed (Claims.update
    [("sub", .uuid subject), ("type", .text "access"), ("iat", .number (timestamp now)),
      ("exp", .number (timestamp (now + cfg.accessTokenTtlSeconds * second))), ("jti", .uuid jti)]
    extraClaims)

/-- The payload of an action token made at `now`. -/
def createActionToken (subject : Uuid) (purpose : String) (ttlSeconds : Nat) (extraClaims : Claims)
    (now : Time) : Jwt :=
  .signed (Claims.update
    [("sub", .uuid subject), ("type", .text purpose), ("iat", .number (timestamp now)),
      ("exp", .number (timestamp (now + ttlSeconds * second)))]
    extraClaims)

/-- Decode an action token and check its purpose. -/
def decodeActionToken (now : Time) (token : Jwt) (purpose : String) : Except PyJWTError Claims := do
  let claims ← token.decode now
  if claims.get "type" ≠ some (.text purpose) then throw .invalidToken
  return claims

/-- A stand-in for the hash functions, on which counterexamples are run. -/
def sampleConfig : Config where
  hashToken raw := "#" ++ raw
  hashPassword salt password := salt ++ "$" ++ password
  verifyPassword password hash := ("$" ++ password).toList.isSuffixOf hash.toList
  passwordNeedsRehash _ := false
  lower s := s

end TrafficPlatform
