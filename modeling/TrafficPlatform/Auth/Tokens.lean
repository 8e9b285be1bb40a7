import TrafficPlatform.Auth.Writes
import TrafficPlatform.Kit.Ends

/-!
# The three kinds of JWT

Access tokens, verification tokens and reset tokens share one secret and one claim namespace, and
the extra claims of a token are merged over the reserved ones. No extra claim has a reserved name,
so `sub`, `type` and `exp` are what the producer put there, and each consumer takes the tokens of
its own type.
-/

namespace TrafficPlatform
open Kit

/-! ### Claims -/

namespace Claims

variable {c extra : Claims} {key key' : String} {v : Claim}

theorem get_set : (c.set key v).get key' = if key = key' then some v else c.get key' := by
  unfold set get
  split
  · rename_i hany
    have hkey : ∀ e : String × Claim, (if e.1 == key then (key, v) else e).1 = e.1 := by
      intro e
      split
      · exact (beq_iff_eq.1 ‹_›).symm
      · rfl
    rw [List.find?_map,
      show ((fun e : String × Claim => e.1 == key') ∘ fun e => if e.1 == key then (key, v) else e) =
      fun e => e.1 == key' from funext fun e => congrArg (· == key') (hkey e)]
    cases hf : c.find? fun e => e.1 == key' with
    | none =>
      obtain ⟨e, he, hek⟩ := List.any_eq_true.1 hany
      have hne : key ≠ key' := fun h => List.find?_eq_none.1 hf e he (h ▸ hek)
      rw [if_neg hne]
      rfl
    | some e =>
      have he : e.1 = key' := by simpa using List.find?_some hf
      by_cases h : key = key'
      · simp [he, h]
      · have hne : ¬ e.1 = key := fun h' => h (h'.symm.trans he)
        simp [h, hne]
  · rename_i hany
    rw [List.find?_append]
    by_cases h : key = key'
    · subst h
      have hnone : (c.find? fun e => e.1 == key) = none :=
        List.find?_eq_none.2 fun e he hek => hany (List.any_eq_true.2 ⟨e, he, hek⟩)
      simp [hnone]
    · simp [h]

theorem get_update (h : ∀ e ∈ extra, e.1 ≠ key) : (c.update extra).get key = c.get key := by
  unfold update
  induction extra generalizing c with
  | nil => rfl
  | cons e extra ih =>
    rw [List.foldl_cons,
      ih fun e' he' => h e' (List.mem_cons_of_mem _ he'), get_set, if_neg (h e List.mem_cons_self)]

end Claims

/-- A claim of a signed token. -/
def Jwt.claim (token : Jwt) (key : String) : Option Claim :=
  match token with
  | .signed claims => claims.get key
  | .other _ => none

/-- The token has not expired at `time`. -/
def Jwt.LiveAt (token : Jwt) (time : Time) : Prop :=
  ∃ exp, token.claim "exp" = some (.number exp) ∧ (time : Int) - epoch < exp * second

variable {time : Time} {token : Jwt} {claims : Claims} {purpose : String}

theorem Jwt.decode_ok (h : token.decode time = .ok claims) : token = .signed claims ∧
    token.LiveAt time := by
  cases token with
  | other s => cases h
  | signed claims' =>
    simp only [Jwt.decode, bind, Except.bind, pure, Except.pure, throw, throwThe,
      MonadExceptOf.throw] at h
    split at h
    · cases h
    · split at h
      · cases h
      rename_i hvalid
      cases h
      refine ⟨rfl, ?_⟩
      simp only [validateClaims, bind, Except.bind, pure, Except.pure, throw, throwThe,
        MonadExceptOf.throw] at hvalid
      by_contra hdead
      have hexpired : ∀ exp, claims.get "exp" = some (.number exp) → exp *
          second ≤ (time : Int) - epoch :=
        fun exp he => Int.not_lt.1 fun hlt => hdead ⟨exp, he, hlt⟩
      repeat' split at hvalid
      all_goals first
        | exact absurd (hexpired _ ‹_›) ‹_›
        | cases hvalid

theorem decodeActionToken_ok (h : decodeActionToken time token purpose = .ok claims) :
    token = .signed claims ∧ token.LiveAt time ∧ token.claim "type" = some (.text purpose) := by
  simp only [decodeActionToken, bind, Except.bind, pure, Except.pure, throw, throwThe,
    MonadExceptOf.throw] at h
  split at h
  · cases h
  · rename_i c hc
    split at h
    · cases h
    · rename_i htype
      cases h
      obtain ⟨rfl, hlive⟩ := Jwt.decode_ok hc
      exact ⟨rfl, hlive, by simpa [Jwt.claim] using htype⟩

/-- A token that decodes: it is signed, is of the type, has a text as subject, has not expired and
was not issued in the future. -/
structure Jwt.Taken (token : Jwt) (type : String) (time : Time) : Prop where
  sub : (∃ text, token.claim "sub" = some (.text text)) ∨ ∃ id, token.claim "sub" = some (.uuid id)
  type : token.claim "type" = some (.text type)
  issued : ∀ claim, token.claim "iat" = some claim → ∃ n, claim = .number n ∧ n *
    second ≤ (time : Int) - epoch
  live : token.LiveAt time

theorem decodeActionToken_taken (h : token.Taken purpose time) : ∃ claims,
    decodeActionToken time token purpose = .ok claims := by
  cases token with
  | other text =>
    obtain ⟨exp, he, -⟩ := h.live
    cases he
  | signed claims =>
    obtain ⟨hsub, htype, hissued, exp, hexp, hlive⟩ := h
    simp only [Jwt.claim] at hsub htype hissued hexp
    have hkeys : (["exp", "sub", "type"].any fun key => (claims.get key).isNone) = false := by
      rcases hsub with ⟨text, hsub⟩ | ⟨id, hsub⟩ <;> simp [hexp, hsub, htype]
    have hvalid : validateClaims time claims = .ok () := by
      simp only [validateClaims, hexp, bind, Except.bind, pure, Except.pure, throw, throwThe,
        MonadExceptOf.throw]
      rw [if_neg (not_le.2 hlive)]
      cases hiat : claims.get "iat" with
      | none => rcases hsub with ⟨text, hsub⟩ | ⟨id, hsub⟩ <;> rw [hsub]
      | some claim =>
        obtain ⟨n, rfl, hle⟩ := hissued claim hiat
        rcases hsub with ⟨text, hsub⟩ | ⟨id, hsub⟩ <;> rw [hsub] <;> simp [not_lt.2 hle]
    refine ⟨claims, ?_⟩
    simp [decodeActionToken, Jwt.decode, hkeys, hvalid, htype, bind, Except.bind, pure, Except.pure]

/-! ### The bearer token (`app/api/deps.py`) -/

/-- `decode_access_token`. -/
def decodeAccessToken (now : Time) (token : Jwt) : Except PyJWTError Claims := token.decode now

/-- `get_current_user` for the credentials of the request. -/
def getCurrentUser (credentials : Option Jwt) : Auth User := do
  match credentials.filter (· ≠ .other "") with
  | none => .raise (ErrorClass.authenticationError.error "Missing bearer token.")
  | some token =>
    let time ← now
    match decodeAccessToken time token with
    | .error _ => .raise (ErrorClass.authenticationError.error "Invalid or expired access token.")
    | .ok claims =>
      if claims.get "type" ≠ some (.text "access") then
        .raise (ErrorClass.authenticationError.error "Wrong token type.")
      else
        let user ← UserRepository.get (← AuthService.subject claims)
        match user with
        | none => .raise (ErrorClass.authenticationError.error "User not found or inactive.")
        | some user =>
          if !user.isActive then .raise (ErrorClass.authenticationError.error "User not found or inactive.")
          else return user

/-! ### The consumers -/

/-- The time that the first clock reading gives. -/
def firstReading (s : Session authTables.backend) : Time := max s.world.clock (s.envs 0).time

/-- The token is signed, is of the type, has not expired, and names the user. -/
structure Jwt.Valid (token : Jwt) (type : String) (time : Time) (userId : Uuid) : Prop where
  type : token.claim "type" = some (.text type)
  live : token.LiveAt time
  sub : token.claim "sub" = some (.uuid userId)

/-- The refresh tokens of the user that are not revoked. -/
def AuthDb.activeTokens (db : AuthDb) (userId : Uuid) : List RefreshToken :=
  db.refreshTokens.select fun t => t.userId == userId && t.revokedAt.isNone

/-- The write revokes the token. -/
def AuthOp.Revokes (t : RefreshToken) (o : AuthOp) : Prop := ∃ time, o = .setRevokedAt t.id time

section
variable {s : Session authTables.backend} {userId : Uuid}

theorem subject_ends (claims : Claims) (s : Session authTables.backend) :
    (AuthService.subject claims).Ends
    (fun id s' => s' = s ∧ claims.get "sub" = some (.uuid id)) (fun _ _ => True) s := by
  unfold AuthService.subject
  split
  · exact ⟨rfl, ‹_›⟩
  · trivial

theorem getCurrentUser_ends (token : Jwt) (s : Session authTables.backend) :
    (getCurrentUser (some token)).Ends
    (fun user s' => token.Valid "access" (firstReading s) user.id ∧ user ∈ s.db.users.rows ∧
      s'.db = s.db ∧ s'.dirty = s.dirty)
    (fun _ _ => True) s := by
  unfold getCurrentUser
  split
  · trivial
  rename_i token' hf
  obtain rfl : token = token' := Option.some.inj (Option.filter_eq_some_iff.1 hf).1
  refine Prog.Ends.bind
    (Q := fun time s₁ => time = firstReading s ∧ s₁.db = s.db ∧ s₁.dirty = s.dirty)
    ⟨rfl, rfl, rfl⟩ ?_
  rintro _ s₁ ⟨rfl, hdb, hdirty⟩
  split
  · trivial
  rename_i claims hdecode
  obtain ⟨rfl, hlive⟩ := Jwt.decode_ok hdecode
  split
  · trivial
  rename_i htype
  refine (subject_ends claims s₁).bind ?_
  rintro id s₁' ⟨hs, hsub⟩
  rw [hs]
  refine Prog.ends_query_bind ?_
  cases hone : s₁.db.users.one fun u => u.id == id with
  | none => trivial
  | some user =>
    have hid : user.id = id := by simpa using Table.pred_of_one hone
    dsimp only
    split
    · trivial
    · refine ⟨⟨by simpa [Jwt.claim] using htype, hlive, ?_⟩, hdb ▸ Table.mem_of_one hone, hdb, hdirty⟩
      rw [hid]
      exact hsub

theorem revokeEach_ends (ts : List RefreshToken) (s : Session authTables.backend) :
    (AuthService.revokeEach ts).Ends
    (fun _ s' => s'.db = s.db ∧ ∃ ops, List.Forall₂ AuthOp.Revokes ts ops ∧ s'.dirty = s.dirty ++ ops)
    (fun _ _ => True) s := by
  induction ts generalizing s with
  | nil => exact ⟨rfl, [], .nil, (List.append_nil _).symm⟩
  | cons t ts ih =>
    refine Prog.Ends.bind (Q := fun _ s₁ => s₁.db = s.db ∧ s₁.dirty = s.dirty) ⟨rfl, rfl⟩
      fun time s₁ ⟨hdb, hdirty⟩ => ?_
    refine Prog.ends_set_bind ((ih _).mono ?_ fun _ _ h => h)
    rintro _ s₂ ⟨hdb', ops, hops, hdirty'⟩
    refine ⟨hdb'.trans hdb, .setRevokedAt t.id time :: ops, .cons ⟨time, rfl⟩ hops, ?_⟩
    rw [hdirty', hdirty, List.append_assoc]
    rfl

/-- What a reset assigns: a new hash to the user, and the revocation of each active token of the
user. -/
theorem resetPassword_ends (cfg : Config) (token : Jwt) (newPassword : String)
    (s : Session authTables.backend) :
    (AuthService.resetPassword cfg token newPassword).Ends
      (fun user s' => token.Valid AuthService.resetPurpose (firstReading s) user.id ∧
        (∃ u ∈ s.db.users.rows, u.id = user.id ∧
          token.claim "pfp" = some (.text (cfg.fingerprint u.passwordHash))) ∧ s'.db = s.db ∧
        ∃ ops, List.Forall₂ AuthOp.Revokes (s.db.activeTokens user.id) ops ∧
          s'.dirty = s.dirty ++
            .setPasswordHash user.id (cfg.hashPassword (s.envs 1).text newPassword) :: ops)
      (fun _ _ => True) s := by
  unfold AuthService.resetPassword
  refine Prog.Ends.bind (Q := fun time s₁ => time = firstReading s ∧ s₁ = s.step s₁.world) ⟨rfl, rfl⟩ ?_
  rintro _ s₁ ⟨rfl, hs₁⟩
  split
  · trivial
  rename_i claims hdecode
  obtain ⟨rfl, hlive, htype⟩ := decodeActionToken_ok hdecode
  refine (subject_ends claims s₁).bind ?_
  rintro id s₁' ⟨hs, hsub⟩
  rw [hs]
  refine Prog.ends_query_bind ?_
  cases hone : s₁.db.users.one fun u => u.id == id with
  | none => trivial
  | some user =>
    have hid : user.id = id := by simpa using Table.pred_of_one hone
    have hmem : user ∈ s.db.users.rows := by
      have h := Table.mem_of_one hone
      rwa [hs₁] at h
    dsimp only
    split
    · trivial
    rename_i hpfp
    rw [AuthService.hashPassword, Prog.bind_assoc']
    refine Prog.Ends.bind
      (Q := fun salt s₂ => salt = (s₁.envs 0).text ∧ s₂.db = s₁.db ∧ s₂.dirty = s₁.dirty)
        ⟨rfl, rfl, rfl⟩ ?_
    rintro _ s₂ ⟨rfl, hdb₂, hdirty₂⟩
    refine Prog.ends_set_bind (Prog.ends_query_bind ((revokeEach_ends _ _).bind ?_))
    rintro _ s₃ ⟨hdb₃, ops, hops, hdirty₃⟩
    have hdb : s₂.db = s.db := by rw [hdb₂, hs₁]; rfl
    refine ⟨⟨htype, hlive, ?_⟩, ⟨user, hmem, rfl, by simpa [Jwt.claim] using hpfp⟩, hdb₃.trans hdb,
      ops, ?_, ?_⟩
    · dsimp only
      rw [hid]
      exact hsub
    · rw [← hdb]
      exact hops
    · rw [hdirty₃, hdirty₂, hs₁, List.append_assoc]
      rfl

theorem exists_of_revokes {ts : List RefreshToken} {ops : List AuthOp}
    (h : List.Forall₂ AuthOp.Revokes ts ops) {o : AuthOp}
    (ho : o ∈ ops) : ∃ id time, o = .setRevokedAt id time := by
  induction h with
  | nil => cases ho
  | cons hr _ ih =>
    rcases List.mem_cons.1 ho with rfl | ho
    · obtain ⟨time, rfl⟩ := hr
      exact ⟨_, time, rfl⟩
    · exact ih ho

end

/-! ### The producers -/

inductive TokenKind
  | access
  | verification
  | reset
deriving DecidableEq, Repr

namespace TokenKind

def type : TokenKind → String
  | access => "access"
  | verification => AuthService.verifyPurpose
  | reset => AuthService.resetPurpose

def ttl (cfg : Config) : TokenKind → Nat
  | access => cfg.accessTokenTtlSeconds
  | verification => AuthService.verifyTtl
  | reset => AuthService.resetTtl

end TokenKind

/-- The service has minted the token for the user. -/
inductive Mints (cfg : Config) : TokenKind → Uuid → Jwt → Prop
  | issueTokens {user : User} {familyId : Option Uuid} {s s' : Session authTables.backend}
    {t : IssuedTokens} :
    (AuthService.issueTokens cfg user familyId).eval s = (.ok t, s') →
      Mints cfg .access user.id t.accessToken
  | sendVerificationEmail {user : User} {s s' : Session authTables.backend} {mail : EmailMessage} :
    (AuthService.sendVerificationEmail user).eval s = (.ok (), s') →
      s'.world.outside = s.world.outside ++ [mail] →
      Mints cfg .verification user.id mail.token
  | requestPasswordReset {email : String} {user : User} {s s' : Session authTables.backend}
    {mail : EmailMessage} :
    (AuthService.requestPasswordReset cfg email).eval s = (.ok (), s') →
      s'.world.outside = s.world.outside ++ [mail] →
      user ∈ s.db.users.rows → user.email = cfg.lower (cfg.lower email) →
        Mints cfg .reset user.id mail.token

/-- The reserved claims are the ones that the producer makes. -/
structure Jwt.Made (cfg : Config) (kind : TokenKind) (userId : Uuid) (token : Jwt) : Prop where
  sub : token.claim "sub" = some (.uuid userId)
  type : token.claim "type" = some (.text kind.type)
  exp : ∃ time, token.claim "exp" = some (.number (timestamp (time + kind.ttl cfg * second)))

section
variable {cfg : Config} {s : Session authTables.backend} {extra : Claims} {kind : TokenKind}
    {userId : Uuid}

theorem made_createAccessToken (h : ∀ e ∈ extra, e.1 ≠ "sub" ∧ e.1 ≠ "type" ∧ e.1 ≠ "exp")
    (jti : Uuid) :
    (createAccessToken cfg userId extra time jti).Made cfg .access userId := by
  refine ⟨?_, ?_, time, ?_⟩
  · exact (Claims.get_update fun e he => (h e he).1).trans rfl
  · exact (Claims.get_update fun e he => (h e he).2.1).trans rfl
  · exact (Claims.get_update fun e he => (h e he).2.2).trans rfl

theorem made_createActionToken (h : ∀ e ∈ extra, e.1 ≠ "sub" ∧ e.1 ≠ "type" ∧ e.1 ≠ "exp")
    (hk : kind.type = purpose) :
    (createActionToken userId purpose (kind.ttl cfg) extra time).Made cfg kind userId := by
  refine ⟨?_, ?_, time, ?_⟩
  · exact (Claims.get_update fun e he => (h e he).1).trans rfl
  · exact (Claims.get_update fun e he => (h e he).2.1).trans (by rw [hk]; rfl)
  · exact (Claims.get_update fun e he => (h e he).2.2).trans rfl

theorem issueTokens_made (cfg : Config) (user : User) (familyId : Option Uuid)
    (s : Session authTables.backend) :
    (AuthService.issueTokens cfg user familyId).Ends
        (fun t _ => t.accessToken.Made cfg .access user.id) (fun _ _ => True) s := by
  unfold AuthService.issueTokens RefreshTokenRepository.add
  refine (Prog.ends_true _ s).bind
    fun raw s₁ _ => (Prog.ends_true _ s₁).bind
      fun f s₂ _ => (Prog.ends_true _ s₂).bind fun time s₃ _ => ?_
  refine (Prog.ends_true _ s₃).bind
    fun id s₄ _ => (Prog.ends_true _ s₄).bind
      fun _ s₅ _ => (Prog.ends_true _ s₅).bind fun roles s₆ _ => ?_
  refine (Prog.ends_true _ s₆).bind fun time' s₇ _ => (Prog.ends_true _ s₇).bind fun jti s₈ _ => ?_
  exact made_createAccessToken (by simp) jti

theorem sendVerificationEmail_ends (user : User) (s : Session authTables.backend) :
    (AuthService.sendVerificationEmail user).Ends
    (fun _ s' => ∃ mail, s'.world.outside = s.world.outside ++ [mail] ∧
      mail.token = createActionToken user.id AuthService.verifyPurpose AuthService.verifyTtl []
          (firstReading s)) (fun _ _ => True) s :=
  ⟨_, rfl, rfl⟩

theorem requestPasswordReset_ends (cfg : Config) (email : String) (s : Session authTables.backend) :
    (AuthService.requestPasswordReset cfg email).Ends (fun _ s' => s'.world.outside = s.world.outside ∨
      ∃ user ∈ s.db.users.rows, user.email = cfg.lower (cfg.lower email) ∧ ∃ mail,
        s'.world.outside = s.world.outside ++ [mail] ∧
        mail.recipient = user.email ∧
          mail.token = createActionToken user.id AuthService.resetPurpose AuthService.resetTtl
          [("pfp", .text (cfg.fingerprint user.passwordHash))] (firstReading s))
              (fun _ _ => False) s := by
  unfold AuthService.requestPasswordReset
  refine Prog.ends_query_bind ?_
  cases hone : s.db.users.one fun u => u.email == cfg.lower (cfg.lower email) with
  | none => exact .inl rfl
  | some user =>
    exact .inr ⟨user, Table.mem_of_one hone,
      by simpa using Table.pred_of_one hone, _, rfl, rfl, rfl⟩

theorem Mints.made {token : Jwt} (h : Mints cfg kind userId token) : token.Made cfg kind userId := by
  cases h with
  | issueTokens he => exact (issueTokens_made cfg _ _ _).of_ok he
  | sendVerificationEmail he hmail =>
    obtain ⟨mail', hmail', htoken⟩ := (sendVerificationEmail_ends _ _).of_ok he
    obtain rfl : mail' = _ := by simpa using hmail'.symm.trans hmail
    rw [htoken]
    exact @made_createActionToken _ _ _ _ .verification _ (by simp) rfl
  | requestPasswordReset he hmail hu hemail =>
    rcases (requestPasswordReset_ends cfg _ _).of_ok he
      with hnone | ⟨user, hu', hemail', mail', hmail', -, htoken⟩
    · simp [hnone] at hmail
    · obtain rfl : mail' = _ := by simpa using hmail'.symm.trans hmail
      obtain rfl := Table.eq_of_clash hu hu' (User.clash_iff.2 (.inr (hemail.trans hemail'.symm)))
      rw [htoken]
      exact @made_createActionToken _ _ _ _ .reset _ (by simp) rfl

end

/-! ### Producers against consumers -/

/-- Who accepts the token: only the consumer of its kind, before it expires, for the user that it
was minted for. -/
structure Jwt.Apart (cfg : Config) (kind : TokenKind) (userId : Uuid) (token : Jwt) : Prop where
  made : token.Made cfg kind userId
  currentUser : ∀ s user s', (getCurrentUser (some token)).eval s = (.ok user, s') →
    kind = .access ∧ token.LiveAt (firstReading s) ∧ user.id = userId ∧ user ∈ s.db.users.rows ∧
      s'.db = s.db ∧ s'.dirty = s.dirty
  verifyEmail : ∀ s user s', (AuthService.verifyEmail token).eval s = (.ok user, s') →
    kind = .verification ∧ token.LiveAt (firstReading s) ∧ user.id = userId ∧ s'.db = s.db ∧
      s'.dirty = s.dirty ++ [.setEmailVerified userId]
  resetPassword : ∀ newPassword s user s',
    (AuthService.resetPassword cfg token newPassword).eval s = (.ok user, s') →
    kind = .reset ∧ token.LiveAt (firstReading s) ∧ user.id = userId ∧ s'.db = s.db ∧
      ∃ ops, List.Forall₂ AuthOp.Revokes (s.db.activeTokens userId) ops ∧
        s'.dirty = s.dirty ++
          .setPasswordHash userId (cfg.hashPassword (s.envs 1).text newPassword) :: ops

end TrafficPlatform
