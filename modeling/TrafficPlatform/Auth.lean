import TrafficPlatform.Accounts
import TrafficPlatform.Security
import TrafficPlatform.Site

/-!
# The authentication service

`app/services/auth.py` with its repositories, its throttle and the routes of `app/api/auth.py`. An
entity that `session.add` or an attribute assignment changed is written by the next flush, and the
queries do not flush (`autoflush=False`).
-/

namespace TrafficPlatform
open Kit

/-! ### The database -/

/-- The tables behind the authentication service; every refresh token belongs to a user. -/
structure AuthDb where
  users : Table User
  refreshTokens : Table RefreshToken
  roles : Table Role
  members : Table OrganizationMember
  owned : ∀ t ∈ refreshTokens.rows, ∃ u ∈ users.rows, u.id = t.userId

/-- A row write. -/
inductive AuthOp
  | addUser (u : User)
  | addToken (t : RefreshToken)
  | setPasswordHash (id : Uuid) (passwordHash : String)
  | setEmailVerified (id : Uuid)
  | setRevokedAt (id : Uuid) (time : Time)
  | setRotatedTo (id : Uuid) (successor : Option Uuid)
deriving DecidableEq, Repr

/-- A row, or an entry of a unique index. -/
inductive AuthKey
  | userRow (id : Uuid)
  | userEmail (email : String)
  | tokenRow (id : Uuid)
  | tokenHash (hash : String)
deriving DecidableEq, Repr

namespace AuthDb

/-- The user that the foreign key of a token names is there. -/
def hasUser (db : AuthDb) (id : Uuid) : Bool := db.users.rows.any fun u => u.id == id

def hasToken (db : AuthDb) (id : Uuid) : Bool := db.refreshTokens.rows.any fun t => t.id == id

def addUser (db : AuthDb) (u : User) : AuthDb where
  __ := db
  users := db.users.insert u
  owned t ht :=
    have ⟨v, hv, h⟩ := db.owned t ht
    ⟨v, Table.mem_insert_of_mem hv, h⟩

def addToken (db : AuthDb) (t : RefreshToken) : AuthDb :=
  if h : db.hasUser t.userId = true then
    { db with
      refreshTokens := db.refreshTokens.insert t
      owned := fun t' ht' => by
        rcases Table.mem_or_eq_of_mem_insert ht' with ht' | rfl
        · exact db.owned t' ht'
        · simpa [hasUser] using h }
  else db

/-- Change columns of the user `id` other than the constrained ones. -/
def setUser (db : AuthDb) (id : Uuid) (f : User → User)
    (hf : ∀ u, (f u).id = u.id ∧ (f u).email = u.email) : AuthDb where
  __ := db
  users := db.users.update (fun u => u.id == id) f fun a b => by simp [Schema.clash, hf]
  owned t ht :=
    have ⟨u, hu, h⟩ := db.owned t ht
    ⟨_, Table.mem_update_of_mem hu, by split <;> simp [hf, h]⟩

/-- Change columns of the refresh token `id` other than the constrained ones. -/
def setToken (db : AuthDb) (id : Uuid) (f : RefreshToken → RefreshToken)
    (hf : ∀ t, (f t).id = t.id ∧ (f t).tokenHash = t.tokenHash ∧ (f t).userId = t.userId) : AuthDb where
  __ := db
  refreshTokens := db.refreshTokens.update (fun t => t.id == id) f fun a b => by simp [Schema.clash, hf]
  owned t ht := by
    obtain ⟨t', ht', rfl⟩ := Table.mem_update.1 ht
    obtain ⟨u, hu, h⟩ := db.owned t' ht'
    exact ⟨u, hu, by split <;> simp [hf, h]⟩

end AuthDb

namespace AuthOp

def apply : AuthOp → AuthDb → AuthDb
  | addUser u, db => db.addUser u
  | addToken t, db => db.addToken t
  | setPasswordHash id h, db =>
    db.setUser id (fun u => { u with passwordHash := h }) fun _ => ⟨rfl, rfl⟩
  | setEmailVerified id, db =>
    db.setUser id (fun u => { u with isEmailVerified := true }) fun _ => ⟨rfl, rfl⟩
  | setRevokedAt id time, db =>
    db.setToken id (fun t => { t with revokedAt := some time }) fun _ => ⟨rfl, rfl, rfl⟩
  | setRotatedTo id successor, db =>
    db.setToken id (fun t => { t with rotatedTo := successor }) fun _ => ⟨rfl, rfl, rfl⟩

/-- An `INSERT` fails on a violated constraint, an `UPDATE` of an entity when its row is gone. The
texts have the length that the schemas of the routes allow, and no NUL character. -/
def check : AuthOp → AuthDb → Except Failure Unit
  | addUser u, db => if db.users.admits u then .ok () else .error .integrityError
  | addToken t, db =>
    if db.hasUser t.userId && db.refreshTokens.admits t then .ok () else .error .integrityError
  | setPasswordHash id _, db => if db.hasUser id then .ok () else .error .staleDataError
  | setEmailVerified id, db => if db.hasUser id then .ok () else .error .staleDataError
  | setRevokedAt id _, db => if db.hasToken id then .ok () else .error .staleDataError
  | setRotatedTo id _, db => if db.hasToken id then .ok () else .error .staleDataError

def keys : AuthOp → List AuthKey
  | addUser u => [.userRow u.id, .userEmail u.email]
  | addToken t => [.tokenRow t.id, .tokenHash t.tokenHash]
  | setPasswordHash id _ => [.userRow id]
  | setEmailVerified id => [.userRow id]
  | setRevokedAt id _ => [.tokenRow id]
  | setRotatedTo id _ => [.tokenRow id]

end AuthOp

/-- A mail whose body is a text followed by a token. -/
structure EmailMessage where
  recipient : String
  subject : String
  body : String
  token : Jwt
deriving DecidableEq, Repr

/-- The tables of the authentication service; outside it has the mails it has sent. -/
abbrev authTables : Tables where
  Outside := List EmailMessage
  Input := Unit
  Db := AuthDb
  Op := AuthOp
  Key := AuthKey
  apply := AuthOp.apply
  check := AuthOp.check
  keys := AuthOp.keys

/-- A handler of the authentication service. -/
abbrev Auth (α : Type) : Type 1 := Prog authTables.backend α

/-! ### Repositories (`app/repositories/user.py`) -/

namespace UserRepository

def get (id : Uuid) : Auth (Option User) := .query fun db => db.users.one fun u => u.id == id

def getByEmail (cfg : Config) (email : String) : Auth (Option User) :=
  .query fun db => db.users.one fun u => u.email == cfg.lower email

def add (u : User) : Auth Unit := do
  .set (.addUser u)
  .flushSession

end UserRepository

namespace RefreshTokenRepository

def getByHash (tokenHash : String) : Auth (Option RefreshToken) :=
  .query fun db => db.refreshTokens.one fun t => t.tokenHash == tokenHash

def add (t : RefreshToken) : Auth Unit := do
  .set (.addToken t)
  .flushSession

/-- The active tokens of a family. -/
def activeInFamily (familyId : Uuid) (t : RefreshToken) : Bool :=
  t.familyId == familyId && t.revokedAt.isNone

/-- Revoke every still-active token in a family (reuse-detection response). -/
def revokeFamily (familyId : Uuid) : Auth Unit := do
  let time ← now
  .executeAll fun db =>
    (db.refreshTokens.select (activeInFamily familyId)).map fun t => .setRevokedAt t.id time

def revoke (t : RefreshToken) : Auth Unit := do
  let time ← now
  .set (.setRevokedAt t.id time)
  .flushSession

end RefreshTokenRepository

namespace MembershipRepository

/-- `(organization_id, role_name)` for every organization the user belongs to. -/
def orgRolesForUser (members : Table OrganizationMember) (roles : Table Role) (userId : Uuid) :
    List (Uuid × String) :=
  (members.select fun m => m.userId == userId).filterMap fun m =>
    (roles.one fun r => r.id == m.roleId).map fun r => (m.organizationId, r.name)

def listOrgRolesForUser (userId : Uuid) : Auth (List (Uuid × String)) :=
  .query fun db => orgRolesForUser db.members db.roles userId

end MembershipRepository

/-! ### The throttle (`app/services/auth_throttle.py`) -/

namespace AuthThrottle

def windowSeconds : Nat := 60

/-- Increment the window counter for `identity`; raise if over the limit. -/
def check (cfg : Config) (identity : String) : Auth Unit := do
  let key : RedisKey := [.text "auth_throttle", .text identity]
  let count ← redisIncr key
  if count = 1 then redisExpire key windowSeconds
  if count > cfg.authRateLimitPerMinute then
    let ttl ← redisTtl key
    .raise (ErrorClass.rateLimitedError.errorWith "Too many authentication attempts. Try again later."
      [("retry_after", .int (max ttl 1))])

end AuthThrottle

/-! ### The service -/

structure IssuedTokens where
  accessToken : Jwt
  refreshToken : String
  expiresIn : Nat
deriving DecidableEq, Repr

namespace AuthService

def verifyPurpose : String := "email_verify"
def resetPurpose : String := "password_reset"
def verifyTtl : Nat := 60 * 60 * 24
def resetTtl : Nat := 60 * 60

variable (cfg : Config)

def sendEmail (m : EmailMessage) : Auth Unit :=
  .ask fun _ w => ((), { w with outside := w.outside ++ [m] })

def sendVerificationEmail (user : User) : Auth Unit := do
  let time ← now
  sendEmail
    { recipient := user.email
      subject := "Verify your email"
      body := "Use this token to verify your email: "
      token := createActionToken user.id verifyPurpose verifyTtl [] time }

/-- `hash_password`: Argon2 with a random salt. -/
def hashPassword (password : String) : Auth String := do
  let salt ← random
  return cfg.hashPassword salt password

def register (email password : String) (fullName : Option String) : Auth User := do
  let email := cfg.lower email
  let existing ← UserRepository.getByEmail cfg email
  if existing.isSome then
    .raise (ErrorClass.conflictError.error "An account with this email already exists.")
  else
    let passwordHash ← hashPassword cfg password
    let id ← uuid4
    let user : User :=
      { id, email, fullName, passwordHash, isActive := true,
        isEmailVerified := false, isSuperuser := false }
    UserRepository.add user
    sendVerificationEmail user
    return user

def authenticate (email password : String) : Auth User := do
  let user ← UserRepository.getByEmail cfg (cfg.lower email)
  match user with
  | none =>
    let _ ← hashPassword cfg password
    .raise (ErrorClass.authenticationError.error "Invalid email or password.")
  | some user =>
    if !cfg.verifyPassword password user.passwordHash then
      .raise (ErrorClass.authenticationError.error "Invalid email or password.")
    else if !user.isActive then
      .raise (ErrorClass.authenticationError.error "Account is disabled.")
    else if cfg.passwordNeedsRehash user.passwordHash then
      let passwordHash ← hashPassword cfg password
      .set (.setPasswordHash user.id passwordHash)
      return { user with passwordHash }
    else return user

/-- `family_id or uuid.uuid4()`. -/
def familyOrNew : Option Uuid → Auth Uuid
  | some family => pure family
  | none => uuid4

def issueTokens (user : User) (familyId : Option Uuid) : Auth IssuedTokens := do
  let rawRefresh ← random
  let family ← familyOrNew familyId
  let time ← now
  let id ← uuid4
  RefreshTokenRepository.add
    { id, userId := user.id, familyId := family, tokenHash := cfg.hashToken rawRefresh
      expiresAt := time + cfg.refreshTokenTtlSeconds * second, revokedAt := none, rotatedTo := none }
  let orgRoles ← MembershipRepository.listOrgRolesForUser user.id
  let time ← now
  let jti ← uuid4
  return {
    accessToken :=
      createAccessToken cfg user.id
        [("email", .text user.email), ("orgs", .orgRoles orgRoles)] time jti
    refreshToken := rawRefresh
    expiresIn := cfg.accessTokenTtlSeconds }

def rotate (rawRefresh : String) : Auth IssuedTokens := do
  let stored ← RefreshTokenRepository.getByHash (cfg.hashToken rawRefresh)
  match stored with
  | none => .raise (ErrorClass.authenticationError.error "Invalid refresh token.")
  | some stored =>
    -- reuse detection: a token that was already revoked or rotated is being replayed
    if stored.revokedAt.isSome then
      RefreshTokenRepository.revokeFamily stored.familyId
      .raise (ErrorClass.authenticationError.error "Refresh token has been revoked.")
    else
      let time ← now
      if stored.expiresAt ≤ time then
        RefreshTokenRepository.revoke stored
        .raise (ErrorClass.authenticationError.error "Refresh token has expired.")
      else
        let user ← UserRepository.get stored.userId
        match user with
        | none => .raise (ErrorClass.authenticationError.error "Account is unavailable.")
        | some user =>
          if !user.isActive then .raise (ErrorClass.authenticationError.error "Account is unavailable.")
          else
            let tokens ← issueTokens cfg user (some stored.familyId)
            let time ← now
            .set (.setRevokedAt stored.id time)
            let successor ← RefreshTokenRepository.getByHash (cfg.hashToken tokens.refreshToken)
            .set (.setRotatedTo stored.id (successor.map (·.id)))
            return tokens

def logout (rawRefresh : String) : Auth Unit := do
  let stored ← RefreshTokenRepository.getByHash (cfg.hashToken rawRefresh)
  match stored with
  | some stored => if stored.revokedAt.isNone then RefreshTokenRepository.revoke stored
  | none => return ()

/-- `uuid.UUID(claims["sub"])`, a `ValueError` when it is no UUID. -/
def subject (claims : Claims) : Auth Uuid :=
  match claims.get "sub" with
  | some (.uuid id) => pure id
  | _ => .raise (.other "ValueError")

def verifyEmail (token : Jwt) : Auth User := do
  let time ← now
  match decodeActionToken time token verifyPurpose with
  | .error _ => .raise (ErrorClass.validationAppError.error "Invalid or expired verification token.")
  | .ok claims =>
    let user ← UserRepository.get (← subject claims)
    match user with
    | none => .raise (ErrorClass.validationAppError.error "Invalid verification token.")
    | some user =>
      .set (.setEmailVerified user.id)
      return { user with isEmailVerified := true }

def requestPasswordReset (email : String) : Auth Unit := do
  let user ← UserRepository.getByEmail cfg (cfg.lower email)
  match user with
  | none => return ()
  | some user =>
    let time ← now
    sendEmail
      { recipient := user.email
        subject := "Reset your password"
        body := "Use this token to reset your password: "
        token := createActionToken user.id resetPurpose resetTtl
          [("pfp", .text (cfg.fingerprint user.passwordHash))] time }

def activeTokensFor (userId : Uuid) : Auth (List RefreshToken) :=
  .query fun db => db.refreshTokens.select fun t => t.userId == userId && t.revokedAt.isNone

/-- `for rt in tokens: rt.revoked_at = datetime.now(UTC)`. -/
def revokeEach : List RefreshToken → Auth Unit
  | [] => pure ()
  | t :: ts => do
    let time ← now
    .set (.setRevokedAt t.id time)
    revokeEach ts

def resetPassword (token : Jwt) (newPassword : String) : Auth User := do
  let time ← now
  match decodeActionToken time token resetPurpose with
  | .error _ => .raise (ErrorClass.validationAppError.error "Invalid or expired reset token.")
  | .ok claims =>
    let user ← UserRepository.get (← subject claims)
    match user with
    | none => .raise (ErrorClass.validationAppError.error "Invalid reset token.")
    | some user =>
      if claims.get "pfp" ≠ some (.text (cfg.fingerprint user.passwordHash)) then
        .raise (ErrorClass.validationAppError.error "This reset token has already been used.")
      else
        let passwordHash ← hashPassword cfg newPassword
        .set (.setPasswordHash user.id passwordHash)
        revokeEach (← activeTokensFor user.id)
        return { user with passwordHash }

end AuthService

/-! ### The routes (`app/api/auth.py`) -/

/-- A call of `/auth/…`; the refresh token comes in the payload or in the cookie. -/
inductive AuthRequest
  | register (email password : String) (fullName : Option String)
  | login (clientIp email password : String)
  | refresh (payload cookie : Option String)
  | logout (payload cookie : Option String)
  | verifyEmail (token : Jwt)
  | requestPasswordReset (clientIp email : String)
  | confirmPasswordReset (token : Jwt) (newPassword : String)
deriving DecidableEq, Repr

/-- The body of the response. -/
inductive AuthAnswer
  | user (id : Uuid) (email : String) (fullName : Option String) (isActive isEmailVerified : Bool)
  | tokens (t : IssuedTokens)
  | message (text : String)
deriving DecidableEq, Repr

/-- `payload.refresh_token or request.cookies.get(REFRESH_COOKIE)`, where the empty string counts
as none. -/
def presented (payload cookie : Option String) : Option String :=
  (payload.filter (· ≠ "")).or (cookie.filter (· ≠ ""))

namespace AuthRequest

/-- The handlers. -/
def prog (cfg : Config) : AuthRequest → Auth AuthAnswer
  | register email password fullName => do
    let user ← AuthService.register cfg email password fullName
    return .user user.id user.email user.fullName user.isActive user.isEmailVerified
  | login clientIp email password => do
    AuthThrottle.check cfg (clientIp ++ ":" ++ cfg.lower email)
    let user ← AuthService.authenticate cfg email password
    return .tokens (← AuthService.issueTokens cfg user none)
  | refresh payload cookie =>
    match presented payload cookie with
    | none => .raise (ErrorClass.authenticationError.error "No refresh token provided.")
    | some raw => do return .tokens (← AuthService.rotate cfg raw)
  | logout payload cookie => do
    match presented payload cookie with
    | none => pure ()
    | some raw => AuthService.logout cfg raw
    return .message "Logged out."
  | verifyEmail token => do
    let _ ← AuthService.verifyEmail token
    return .message "Email verified."
  | requestPasswordReset clientIp email => do
    AuthThrottle.check cfg (clientIp ++ ":reset")
    AuthService.requestPasswordReset cfg email
    return .message "If the email exists, a reset link has been sent."
  | confirmPasswordReset token newPassword => do
    let _ ← AuthService.resetPassword cfg token newPassword
    return .message "Password has been reset."

/-- The stored hash of the refresh token that a `/auth/refresh` call exchanges. -/
def exchangedHash (cfg : Config) : AuthRequest → Option String
  | refresh payload cookie => (presented payload cookie).map cfg.hashToken
  | _ => none

end AuthRequest

/-! ### A small instance -/

/-- The database before the first login. -/
def AuthDb.initial (users : Table User) (roles : Table Role) (members : Table OrganizationMember) :
    AuthDb :=
  ⟨users, .empty, roles, members, by simp⟩

def sampleDb : AuthDb := .initial (Table.empty.insert sampleUser) .empty .empty

def sampleWorld : World (List EmailMessage) := ⟨epoch, 2, Store.empty, []⟩

/-- An `io` step at second `n` of the epoch that draws `text`. -/
def sampleEnv (n : Nat) (text : String) : Env Unit := ⟨epoch + n * second, text, 0, ()⟩

end TrafficPlatform
