import Mathlib.Logic.Function.Basic
import TrafficPlatform.Auth.ResetTokens
import TrafficPlatform.Kit.Simulation

/-!
# The directory

What the authentication service is for, in its callers' terms: accounts with a password, and refresh
tokens that are given out, exchanged and taken back. `Directory.Step` says which answers a call may
get and what it changes, without hashes of passwords, rows and transactions; `Directory.Of` relates
a directory to the tables that store it.
-/

namespace TrafficPlatform
open Kit

/-- An account, with the password that its owner knows. -/
structure Account where
  email : String
  password : String
  isActive : Bool
  isEmailVerified : Bool

/-- A refresh token that was given out. -/
structure Grant where
  userId : Uuid
  expiresAt : Time
  live : Bool

/-- The accounts, and the refresh tokens by their hash. -/
structure Directory where
  accounts : Uuid → Option Account
  grants : String → Option Grant

/-- One call: the request, its answer, and the clock before and after it. -/
structure Observation where
  request : AuthRequest
  answer : Except Failure AuthAnswer
  before : Time
  after : Time

/-- The error of a throttled attempt. -/
def Failure.IsRateLimited (e : Failure) : Prop := ∃ seconds : Int,
  e = ErrorClass.rateLimitedError.errorWith "Too many authentication attempts. Try again later."
    [("retry_after", .int seconds)]

namespace Directory

variable (σ : Directory)

/-- Some account has the email. -/
def Knows (email : String) : Prop := ∃ id a, σ.accounts id = some a ∧ a.email = email

/-- The email and the password are those of the account. -/
def Opens (email password : String) (id : Uuid) (a : Account) : Prop :=
  σ.accounts id = some a ∧ a.email = email ∧ a.password = password

def setAccount (id : Uuid) (a : Account) : Directory :=
  { σ with accounts := Function.update σ.accounts id (some a) }

/-- Change an account that is there. -/
def change (id : Uuid) (f : Account → Account) : Directory :=
  { σ with accounts := Function.update σ.accounts id ((σ.accounts id).map f) }

def give (hash : String) (g : Grant) : Directory :=
  { σ with grants := Function.update σ.grants hash (some g) }

/-- Take a refresh token back. -/
def take (hash : String) : Directory :=
  { σ with
    grants :=
      Function.update σ.grants hash ((σ.grants hash).map fun g => { g with live := false }) }

/-- Take all refresh tokens of the user back. -/
def takeAll (userId : Uuid) : Directory :=
  { σ with
    grants := fun hash =>
      (σ.grants hash).map fun g => if g.userId = userId then { g with live := false } else g }

/-- Take back the refresh token that the call presents, if it presents one. -/
def takePresented (cfg : Config) (payload cookie : Option String) : Directory :=
  match presented payload cookie with
  | none => σ
  | some raw => σ.take (cfg.hashToken raw)

/-- The call presents a refresh token that is good at the time, of an account that is active. -/
def Admits (cfg : Config) (payload cookie : Option String) (time : Time) (raw : String)
    (g : Grant) : Prop :=
  presented payload cookie = some raw ∧ σ.grants (cfg.hashToken raw) = some g ∧ g.live = true ∧
    time < g.expiresAt ∧
    ∃ a, σ.accounts g.userId = some a ∧ a.isActive = true

/-- New tokens for the user. -/
structure Issues (cfg : Config) (t : IssuedTokens) (userId : Uuid) : Prop where
  accessToken : t.accessToken.Made cfg .access userId
  fresh : σ.grants (cfg.hashToken t.refreshToken) = none

/-- The refresh token of tokens that are issued to the user at the time. -/
def issue (cfg : Config) (t : IssuedTokens) (userId : Uuid) (time : Time) : Directory :=
  σ.give (cfg.hashToken t.refreshToken) ⟨userId, time + cfg.refreshTokenTtlSeconds * second, true⟩

/-- The directory `σ'` after a request that ran in the time and got the answer. -/
def Answers (cfg : Config) (σ' : Directory) (during : Time → Prop) : AuthRequest → AuthAnswer → Prop
  | .register email password fullName, a =>
    ¬ σ.Knows (cfg.lower (cfg.lower email)) ∧ ¬ σ.Knows (cfg.lower email) ∧
    ∃ id, σ.accounts id = none ∧ a = .user id (cfg.lower email) fullName true false ∧
      σ' = σ.setAccount id ⟨cfg.lower email, password, true, false⟩
  | .login _ email password, a =>
    ∃ id account t time, σ.Opens (cfg.lower (cfg.lower email)) password id account ∧
    account.isActive = true ∧ during time ∧ σ.Issues cfg t id ∧ a = .tokens t ∧
      σ' = σ.issue cfg t id time
  | .refresh payload cookie, a =>
    ∃ raw g t time time', during time ∧ during time' ∧ σ.Admits cfg payload cookie time raw g ∧
    σ.Issues cfg t g.userId ∧ a = .tokens t ∧
      σ' = (σ.issue cfg t g.userId time').take (cfg.hashToken raw)
  | .logout payload cookie, a => a = .message "Logged out." ∧ σ' = σ.takePresented cfg payload cookie
  | .verifyEmail token, a =>
    ∃ id time, during time ∧ token.Valid AuthService.verifyPurpose time id ∧
      (σ.accounts id).isSome ∧
    a = .message "Email verified." ∧ σ' = σ.change id fun a => { a with isEmailVerified := true }
  | .requestPasswordReset _ _, a =>
    a = .message "If the email exists, a reset link has been sent." ∧ σ' = σ
  | .confirmPasswordReset token newPassword, a =>
    ∃ id time, during time ∧ token.Valid AuthService.resetPurpose time id ∧
    (σ.accounts id).isSome ∧ a = .message "Password has been reset." ∧
      σ' = (σ.change id fun a => { a with password := newPassword }).takeAll id

/-- Why a request that ran in the time got the error. -/
def Refuses (cfg : Config) (during : Time → Prop) : AuthRequest → Failure → Prop
  | .register email _ _, e => σ.Knows (cfg.lower (cfg.lower email)) ∧
    e = ErrorClass.conflictError.error "An account with this email already exists."
  | .login _ email password, e => e.IsRateLimited ∨
    (e = ErrorClass.authenticationError.error "Invalid email or password." ∧
      ∀ id a, ¬ σ.Opens (cfg.lower (cfg.lower email)) password id a) ∨
    (e = ErrorClass.authenticationError.error "Account is disabled." ∧
      ∃ id a, σ.Opens (cfg.lower (cfg.lower email)) password id a ∧ a.isActive = false)
  | .refresh payload cookie, e => (∃ message, e = ErrorClass.authenticationError.error message) ∧
    ∃ time, during time ∧ ∀ raw g, ¬ σ.Admits cfg payload cookie time raw g
  | .logout _ _, _ => False
  | .verifyEmail token, e =>
    (e = ErrorClass.validationAppError.error "Invalid or expired verification token." ∧
      ∃ time, during time ∧ ¬ token.Taken AuthService.verifyPurpose time) ∨
    (e = ErrorClass.validationAppError.error "Invalid verification token." ∧
      ∃ id, token.claim "sub" = some (.uuid id) ∧ σ.accounts id = none)
  | .requestPasswordReset _ _, e => e.IsRateLimited
  | .confirmPasswordReset token _, e =>
    (e = ErrorClass.validationAppError.error "Invalid or expired reset token." ∧
      ∃ time, during time ∧ ¬ token.Taken AuthService.resetPurpose time) ∨
    (e = ErrorClass.validationAppError.error "Invalid reset token." ∧
      ∃ id, token.claim "sub" = some (.uuid id) ∧ σ.accounts id = none) ∨
    -- a token carries a fingerprint of the hash that the password had when it was made
    (e = ErrorClass.validationAppError.error "This reset token has already been used." ∧
      ∃ id a hash, token.claim "sub" = some (.uuid id) ∧ σ.accounts id = some a ∧
        (∀ p, cfg.verifyPassword p hash = true ↔ p = a.password) ∧
          token.claim "pfp" ≠ some (.text (cfg.fingerprint hash)))

end Directory

/-- The requests that an error of the database or a malformed token may cut off. -/
def AuthRequest.Fallible : AuthRequest → Prop
  | requestPasswordReset _ _ => False
  | _ => True

/-- What a call may answer, and the directory after it: a call that fails changes nothing. -/
def Directory.Step (cfg : Config) (σ : Directory) (o : Observation) (σ' : Directory) : Prop :=
  match o.answer with
  | .ok a => σ.Answers cfg σ' (fun time => o.before ≤ time ∧ time ≤ o.after) o.request a
  | .error e => σ' = σ ∧ (σ.Refuses cfg (fun time => o.before ≤ time ∧ time ≤ o.after) o.request e ∨
    o.request.Fallible ∧ ∀ err, e ≠ .app err)

/-! ### The tables of a directory -/

/-- The row of an account: its hash is one of the password. -/
structure Account.Of (cfg : Config) (a : Account) (u : User) : Prop where
  email : u.email = a.email
  isActive : u.isActive = a.isActive
  isEmailVerified : u.isEmailVerified = a.isEmailVerified
  password : ∀ p, cfg.verifyPassword p u.passwordHash = true ↔ p = a.password

/-- The tables store the directory. -/
structure Directory.Of (cfg : Config) (σ : Directory) (db : AuthDb) : Prop where
  account : ∀ u ∈ db.users.rows, ∃ a, σ.accounts u.id = some a ∧ a.Of cfg u
  user : ∀ id a, σ.accounts id = some a → ∃ u ∈ db.users.rows, u.id = id
  grant : ∀ t ∈ db.refreshTokens.rows,
    σ.grants t.tokenHash = some ⟨t.userId, t.expiresAt, t.revokedAt.isNone⟩
  token : ∀ hash g, σ.grants hash = some g → ∃ t ∈ db.refreshTokens.rows, t.tokenHash = hash

/-- A password opens the hash that is made of it, and no other password does. -/
def Config.Verifies (cfg : Config) : Prop :=
  ∀ salt password p, cfg.verifyPassword p (cfg.hashPassword salt password) = true ↔ p = password

section
variable {cfg : Config} {σ : Directory} {db : AuthDb} {id : Uuid} {a : Account}

namespace Directory

theorem accounts_setAccount {id' : Uuid} : (σ.setAccount id a).accounts id' = if id' =
    id then some a else σ.accounts id' :=
  Function.update_apply _ _ _ _

theorem accounts_change {f : Account → Account} {id' : Uuid} :
    (σ.change id f).accounts id' = (σ.accounts id').map fun a => if id' = id then f a else a := by
  refine (Function.update_apply _ _ _ _).trans ?_
  split
  · rename_i h
    rw [h]
  · exact Option.map_id'.symm

theorem grants_give {hash hash' : String} {g : Grant} : (σ.give hash g).grants hash' = if hash' =
    hash then some g else σ.grants hash' :=
  Function.update_apply _ _ _ _

theorem grants_take {hash hash' : String} :
    (σ.take hash).grants hash' = (σ.grants hash').map
        fun g => if hash' = hash then { g with live := false } else g := by
  refine (Function.update_apply _ _ _ _).trans ?_
  split
  · rename_i h
    rw [h]
  · exact Option.map_id'.symm

end Directory

/-! ### The row writes -/

namespace Directory.Of

theorem account_of (h : Directory.Of cfg σ db) {u : User} (hu : u ∈ db.users.rows)
    (ha : σ.accounts u.id = some a) : a.Of cfg u := by
  obtain ⟨a', ha', hof⟩ := h.account u hu
  cases ha'.symm.trans ha
  exact hof

theorem user_of (h : Directory.Of cfg σ db) (ha : σ.accounts id = some a) : ∃ u ∈ db.users.rows,
    u.id = id ∧ a.Of cfg u := by
  obtain ⟨u, hu, rfl⟩ := h.user id a ha
  exact ⟨u, hu, rfl, h.account_of hu ha⟩

theorem token_of (h : Directory.Of cfg σ db) {hash : String} {g : Grant} (hg : σ.grants hash = some g) :
    ∃ t ∈ db.refreshTokens.rows, t.tokenHash = hash ∧
        g = ⟨t.userId, t.expiresAt, t.revokedAt.isNone⟩ := by
  obtain ⟨t, ht, rfl⟩ := h.token hash g hg
  exact ⟨t, ht, rfl, Option.some.inj (hg.symm.trans (h.grant t ht))⟩

theorem addUser (h : Directory.Of cfg σ db) {u : User} (hu : db.users.admits u = true)
    (ha : a.Of cfg u) :
    Directory.Of cfg (σ.setAccount u.id a) ((AuthOp.addUser u).apply db) := by
  refine ⟨fun v hv => ?_, fun id' a' ha' => ?_, h.grant, h.token⟩
  · rw [accounts_setAccount]
    rcases AuthOp.mem_users_apply.1 hv with ⟨v', hv', rfl⟩ | ⟨heq, -⟩
    · have hne : v'.id ≠ u.id := fun hid => Table.admits_iff.1 hu v' hv' (User.clash_iff.2 (.inl hid))
      show ∃ a₁, (if v'.id = u.id then some a else σ.accounts v'.id) = some a₁ ∧ a₁.Of cfg v'
      rw [if_neg hne]
      exact h.account v' hv'
    · cases heq
      exact ⟨a, if_pos rfl, ha⟩
  · rw [accounts_setAccount] at ha'
    split at ha'
    · rename_i hid
      exact ⟨u, AuthOp.mem_users_apply.2 (.inr ⟨rfl, hu⟩), hid.symm⟩
    · obtain ⟨v, hv, hid⟩ := h.user id' a' ha'
      exact ⟨v, AuthOp.mem_users_apply.2 (.inl ⟨v, hv, rfl⟩), hid⟩

/-- A write that changes the row and the account of one user. -/
theorem change (h : Directory.Of cfg σ db) {o : AuthOp} {f : Account → Account}
    (hadd : ∀ u, o ≠ .addUser u)
    (htokens : (o.apply db).refreshTokens = db.refreshTokens)
    (hf : ∀ u ∈ db.users.rows, ∀ a, σ.accounts u.id = some a → a.Of cfg u →
      Account.Of cfg (if u.id = id then f a else a) (o.onUser u)) :
    Directory.Of cfg (σ.change id f) (o.apply db) := by
  refine ⟨fun v hv => ?_, fun id' a' ha' => ?_, ?_, ?_⟩
  · rcases AuthOp.mem_users_apply.1 hv with ⟨u, hu, rfl⟩ | ⟨heq, -⟩
    · obtain ⟨a, ha, hof⟩ := h.account u hu
      rw [(o.onUser_same u).1, accounts_change, ha]
      exact ⟨_, rfl, hf u hu a ha hof⟩
    · exact absurd heq (hadd v)
  · rw [accounts_change] at ha'
    obtain ⟨a, ha, -⟩ := Option.map_eq_some_iff.1 ha'
    obtain ⟨u, hu, rfl⟩ := h.user id' a ha
    exact ⟨_, AuthOp.mem_users_apply.2 (.inl ⟨u, hu, rfl⟩), (o.onUser_same u).1⟩
  · rw [htokens]
    exact h.grant
  · rw [htokens]
    exact h.token

theorem setPasswordHash (h : Directory.Of cfg σ db) {hash password : String}
    (hhash : ∀ p, cfg.verifyPassword p hash = true ↔ p = password) :
    Directory.Of cfg (σ.change id fun a => { a with password := password })
        ((AuthOp.setPasswordHash id hash).apply db) := by
  refine h.change (by simp) rfl fun u hu a ha hof => ?_
  by_cases hid : u.id = id
  · simp only [AuthOp.onUser, beq_iff_eq, if_pos hid]
    exact ⟨hof.email, hof.isActive, hof.isEmailVerified, hhash⟩
  · simp only [AuthOp.onUser, beq_iff_eq, if_neg hid]
    exact hof

theorem setEmailVerified (h : Directory.Of cfg σ db) :
    Directory.Of cfg (σ.change id fun a => { a with isEmailVerified := true })
        ((AuthOp.setEmailVerified id).apply db) := by
  refine h.change (by simp) rfl fun u hu a ha hof => ?_
  by_cases hid : u.id = id
  · simp only [AuthOp.onUser, beq_iff_eq, if_pos hid]
    exact ⟨hof.email, hof.isActive, rfl, hof.password⟩
  · simp only [AuthOp.onUser, beq_iff_eq, if_neg hid]
    exact hof

theorem addToken (h : Directory.Of cfg σ db) {t : RefreshToken} (hu : db.hasUser t.userId = true)
    (ht : db.refreshTokens.admits t = true) (hrevoked : t.revokedAt = none) :
    Directory.Of cfg (σ.give t.tokenHash ⟨t.userId, t.expiresAt, true⟩)
        ((AuthOp.addToken t).apply db) := by
  have husers : ((AuthOp.addToken t).apply db).users = db.users := by
    simp only [AuthOp.apply, AuthDb.addToken, dif_pos hu]
  refine ⟨?_, ?_, fun t' ht' => ?_, fun hash g hg => ?_⟩
  · rw [husers]
    exact h.account
  · rw [husers]
    exact h.user
  · rw [grants_give]
    rcases AuthOp.mem_tokens_apply.1 ht' with ⟨t₀, ht₀, rfl⟩ | ⟨heq, -⟩
    · have hne : t₀.tokenHash ≠ t.tokenHash :=
        fun hid => Table.admits_iff.1 ht t₀ ht₀ (RefreshToken.clash_iff.2 (.inr hid))
      exact (if_neg hne).trans (h.grant t₀ ht₀)
    · cases heq
      rw [if_pos rfl, hrevoked]
      rfl
  · rw [grants_give] at hg
    split at hg
    · rename_i heq
      exact ⟨t, AuthOp.mem_tokens_apply.2 (.inr ⟨rfl, hu, ht⟩), heq.symm⟩
    · obtain ⟨t₀, ht₀, heq⟩ := h.token hash g hg
      exact ⟨t₀, mem_addToken_of_mem ht₀, heq⟩

theorem setRevokedAt (h : Directory.Of cfg σ db) {t : RefreshToken} {time : Time}
    (ht : ∃ t' ∈ db.refreshTokens.rows, t'.id = t.id ∧ t'.tokenHash = t.tokenHash) :
    Directory.Of cfg (σ.take t.tokenHash) ((AuthOp.setRevokedAt t.id time).apply db) := by
  obtain ⟨t₁, ht₁, hid, hhash⟩ := ht
  refine ⟨h.account, h.user, fun t' ht' => ?_, fun hash g hg => ?_⟩
  · rcases AuthOp.mem_tokens_apply.1 ht' with ⟨t₀, ht₀, rfl⟩ | ⟨heq, -⟩
    · rw [(AuthOp.onToken_same _ t₀).tokenHash, grants_take, h.grant t₀ ht₀]
      by_cases heq : t₀.id = t.id
      · have hsame : t₀.tokenHash = t.tokenHash :=
          (congrArg (·.tokenHash)
            (Table.eq_of_clash ht₀ ht₁
              (RefreshToken.clash_iff.2 (.inl (heq.trans hid.symm))))).trans hhash
        simp [AuthOp.onToken, heq, hsame]
      · have hne : t₀.tokenHash ≠ t.tokenHash := fun hsame => heq
          ((congrArg (·.id)
            (Table.eq_of_clash ht₀ ht₁
              (RefreshToken.clash_iff.2 (.inr (hsame.trans hhash.symm))))).trans hid)
        simp [AuthOp.onToken, heq, hne]
    · cases heq
  · rw [grants_take] at hg
    obtain ⟨g₀, hg₀, -⟩ := Option.map_eq_some_iff.1 hg
    obtain ⟨t₀, ht₀, rfl⟩ := h.token hash g₀ hg₀
    exact ⟨_, AuthOp.mem_tokens_apply.2 (.inl ⟨t₀, ht₀, rfl⟩), (AuthOp.onToken_same _ t₀).tokenHash⟩

theorem setRotatedTo (h : Directory.Of cfg σ db) (successor : Option Uuid) :
    Directory.Of cfg σ ((AuthOp.setRotatedTo id successor).apply db) := by
  refine ⟨h.account, h.user, fun t' ht' => ?_, fun hash g hg => ?_⟩
  · rcases AuthOp.mem_tokens_apply.1 ht' with ⟨t₀, ht₀, rfl⟩ | ⟨heq, -⟩
    · rw [(AuthOp.onToken_same _ t₀).tokenHash, h.grant t₀ ht₀]
      simp only [AuthOp.onToken]
      split <;> rfl
    · cases heq
  · obtain ⟨t₀, ht₀, rfl⟩ := h.token hash g hg
    exact ⟨_, AuthOp.mem_tokens_apply.2 (.inl ⟨t₀, ht₀, rfl⟩), (AuthOp.onToken_same _ t₀).tokenHash⟩

end Directory.Of

/-! ### A reset -/

namespace Directory

/-- Take back the refresh tokens of a list. -/
def takeEach (σ : Directory) (ts : List RefreshToken) : Directory :=
  ts.foldl (fun σ t => σ.take t.tokenHash) σ

theorem accounts_takeEach (ts : List RefreshToken) : (σ.takeEach ts).accounts = σ.accounts := by
  induction ts generalizing σ with
  | nil => rfl
  | cons t ts ih => exact ih

theorem grants_takeEach (ts : List RefreshToken) (hash : String) : (σ.takeEach ts).grants hash =
    (σ.grants hash).map
        fun g => if hash ∈ ts.map (·.tokenHash) then { g with live := false } else g := by
  induction ts generalizing σ with
  | nil => simp [takeEach]
  | cons t ts ih =>
    refine (ih (σ := σ.take t.tokenHash)).trans ?_
    rw [grants_take, Option.map_map]
    congr 1
    funext g
    by_cases heq : hash = t.tokenHash
    · simp [heq]
    · simp [heq]

/-- The active refresh tokens of the user are all that a reset has to take back. -/
theorem Of.takeEach_eq (h : Directory.Of cfg σ db) (userId : Uuid) :
    σ.takeEach (db.refreshTokens.select fun t => t.userId == userId && t.revokedAt.isNone) =
        σ.takeAll userId := by
  have hgrants :
      (σ.takeEach (db.refreshTokens.select
        fun t => t.userId == userId && t.revokedAt.isNone)).grants =
      (σ.takeAll userId).grants := by
    funext hash
    rw [grants_takeEach]
    refine Option.map_congr fun g hg => ?_
    obtain ⟨t, ht, rfl, rfl⟩ := h.token_of hg
    have hmem : t.tokenHash ∈
        (db.refreshTokens.select fun t => t.userId == userId && t.revokedAt.isNone).map
          (·.tokenHash) ↔
        t.userId = userId ∧ t.revokedAt = none := by
      rw [List.mem_map]
      constructor
      · rintro ⟨t', ht', hhash⟩
        obtain ⟨hrow, hp⟩ := Table.mem_select.1 ht'
        obtain rfl := Table.eq_of_clash hrow ht (RefreshToken.clash_iff.2 (.inr hhash))
        simpa using hp
      · exact fun hp => ⟨t, Table.mem_select.2 ⟨ht, by simpa using hp⟩, rfl⟩
    by_cases hu : t.userId = userId
    · cases hr : t.revokedAt <;> simp [hu, hr, hmem]
    · simp [hu, hmem]
  calc σ.takeEach _ = ⟨(σ.takeEach _).accounts, (σ.takeEach _).grants⟩ := rfl
    _ = σ.takeAll userId := by rw [hgrants, accounts_takeEach]; rfl

end Directory

/-- The writes revoke the tokens one by one. -/
abbrev Revokes (ts : List RefreshToken) (ops : List AuthOp) : Prop :=
  List.Forall₂ (fun t o => ∃ time, o = AuthOp.setRevokedAt t.id time) ts ops

theorem Directory.Of.revokes (h : Directory.Of cfg σ db) {ts : List RefreshToken}
    {ops : List AuthOp} (hops : Revokes ts ops)
    (hts : ∀ t ∈ ts, ∃ t' ∈ db.refreshTokens.rows, t'.id = t.id ∧ t'.tokenHash = t.tokenHash) :
    Directory.Of cfg (σ.takeEach ts) (applyAll authTables.backend ops db) := by
  induction hops generalizing σ db with
  | nil => exact h
  | cons ho _ ih =>
    obtain ⟨time, rfl⟩ := ho
    obtain ⟨ht, hts⟩ := List.forall_mem_cons.1 hts
    refine ih (h.setRevokedAt ht) fun t hmem => ?_
    obtain ⟨t', ht', hid, hhash⟩ := hts t hmem
    refine ⟨_, AuthOp.mem_tokens_apply.2 (.inl ⟨t', ht', rfl⟩), ?_, ?_⟩
    · exact (AuthOp.onToken_same _ t').id.trans hid
    · exact (AuthOp.onToken_same _ t').tokenHash.trans hhash

end

end TrafficPlatform
