import TrafficPlatform.Auth.Reset
import TrafficPlatform.Auth.Reuse
import TrafficPlatform.Auth.Throttle

/-!
# Reset tokens are single-use

A reset token carries a fingerprint of the password hash that it resets, and nothing records its
use. Every hash that a call stores is one that it has just made, whose fingerprint is none of an
earlier one: once the stored hash of a user changes, the tokens that were sent before are of no use,
whatever is stored later.
-/

namespace TrafficPlatform
open Kit

/-- The stored password hash of a user. -/
def AuthDb.hashOf (db : AuthDb) (id : Uuid) : Option String :=
  (db.users.one fun u => u.id == id).map (·.passwordHash)

namespace AuthState

/-- The result of `hash_password` in the call, if it gets that far. -/
def hashed (cfg : Config) (s : AuthState) (c : AuthCall) : Option String :=
  match c.req with
  | .register _ password _ => some (cfg.hashPassword (c.envs 0).text password)
  | .login clientIp email password =>
    -- the throttle has one effect before, and a second one for the first attempt of a window
    let count := (World.incr (AuthThrottle.key (clientIp ++ ":" ++ cfg.lower email))
      (c.envs 0) s.world).1
    some (cfg.hashPassword (c.envs (if count = 1 then 2 else 1)).text password)
  | .confirmPasswordReset _ newPassword => some (cfg.hashPassword (c.envs 1).text newPassword)
  | _ => none

/-- The fingerprint of that result. -/
def fingerprint (cfg : Config) (s : AuthState) (c : AuthCall) : Option String :=
  (s.hashed cfg c).map cfg.fingerprint

/-- The call sends the user a reset token. -/
def Sends (cfg : Config) (s : AuthState) (c : AuthCall) (token : Jwt) (userId : Uuid) : Prop :=
  ∃ clientIp email, c.req = .requestPasswordReset clientIp email ∧
    (∃ u ∈ s.db.users.rows, u.id = userId ∧ u.email = cfg.lower (cfg.lower email)) ∧
    ∃ mail, (s.call cfg c).world.outside = s.world.outside ++ [mail] ∧ mail.token = token

/-- The call is a `reset_password` with the token, and succeeds. -/
def Accepts (cfg : Config) (s : AuthState) (c : AuthCall) (token : Jwt) : Prop :=
  (∃ newPassword, c.req = .confirmPasswordReset token newPassword) ∧ s.Succeeds cfg c

/-- The call, before the token expires, changes the password of this user and leaves the other users
alone. -/
structure ResetsOnly (cfg : Config) (s : AuthState) (c : AuthCall) (token : Jwt)
    (userId : Uuid) : Prop where
  live : token.LiveAt (s.time c)
  user : (s.call cfg c).db.hashOf userId = s.hashed cfg c
  others : ∀ u, u.id ≠ userId → (u ∈ (s.call cfg c).db.users.rows ↔ u ∈ s.db.users.rows)

end AuthState

/-- The token was sent to the user just before the state `sent`, and `reset` accepts it after the
calls `between`. Until then the hash of the user is the one of `sent` and no reset for the user
succeeds, and of the calls `later` none accepts the token. -/
structure SingleUse (cfg : Config) (sent : AuthState) (token : Jwt) (userId : Uuid)
    (between : List AuthCall) (reset : AuthCall) (later : List AuthCall) : Prop where
  resets : (run (AuthState.call cfg) sent between).ResetsOnly cfg reset token userId
  unchanged : ∀ cs cs', between = cs ++ cs' → (run (AuthState.call cfg) sent cs).db.hashOf userId =
    sent.db.hashOf userId
  first : ∀ cs c cs' token', between = cs ++ c :: cs' → token'.sub = some userId →
    ¬ (run (AuthState.call cfg) sent cs).Accepts cfg c token'
  last : ∀ cs c cs', later = cs ++ c :: cs' →
    ¬ (run (AuthState.call cfg) sent (between ++ reset :: cs)).Accepts cfg c token

/-- A state, with the fingerprints of the hashes that have been made. -/
abbrev Hashing : Type := AuthState × List String

namespace Hashing

def next (cfg : Config) (p : Hashing) (c : AuthCall) : Hashing :=
  (p.1.call cfg c, p.2 ++ (p.1.fingerprint cfg c).toList)

/-- The result of `hash_password` in the call shares no fingerprint with an earlier one. -/
def Fresh (cfg : Config) (p : Hashing) (c : AuthCall) : Prop := ∀ f ∈ p.1.fingerprint cfg c, f ∉ p.2

/-- The fingerprint is of a hash that has been made, and not of the user's hash. -/
def Stale (cfg : Config) (f : String) (userId : Uuid) (p : Hashing) : Prop :=
  f ∈ p.2 ∧ ∀ hash, p.1.db.hashOf userId = some hash → cfg.fingerprint hash ≠ f

end Hashing

/-- The fingerprints of the stored hashes. -/
def AuthState.fingerprints (cfg : Config) (s : AuthState) : List String :=
  s.db.users.rows.map fun u => cfg.fingerprint u.passwordHash

/-- No two results of `hash_password` share a fingerprint: those stored at first, and those of the
calls. -/
def Salted (cfg : Config) (s : AuthState) (calls : List AuthCall) : Prop :=
  Meets (Hashing.next cfg) (Hashing.Fresh cfg) (s, s.fingerprints cfg) calls

variable {cfg : Config} {s : AuthState} {c : AuthCall} {userId : Uuid} {token : Jwt}

theorem AuthDb.hashOf_eq_some {db : AuthDb} {hash : String} :
    db.hashOf userId = some hash ↔ ∃ u ∈ db.users.rows, u.id = userId ∧ u.passwordHash = hash := by
  unfold hashOf
  rw [Option.map_eq_some_iff]
  constructor
  · rintro ⟨u, hone, rfl⟩
    exact ⟨u, Table.mem_of_one hone, by simpa using Table.pred_of_one hone, rfl⟩
  · rintro ⟨u, hu, rfl, rfl⟩
    exact ⟨u, one_userId hu, rfl⟩

/-! ### The hashes that a call stores -/

/-- The only password hash that the write stores is `hash`. -/
def AuthOp.Stores (hash : Option String) : AuthOp → Prop
  | .addUser u => hash = some u.passwordHash
  | .setPasswordHash _ passwordHash => hash = some passwordHash
  | _ => True

section
variable {hash : Option String}

theorem AuthOp.Stores.onUser {o : AuthOp} (h : o.Stores hash) (u : User) :
    (o.onUser u).passwordHash = u.passwordHash ∨ hash = some (o.onUser u).passwordHash := by
  cases o with
  | setPasswordHash id passwordHash =>
    simp only [AuthOp.onUser]
    split
    · exact .inr h
    · exact .inl rfl
  | setEmailVerified id =>
    simp only [AuthOp.onUser]
    split <;> exact .inl rfl
  | _ => exact .inl rfl

theorem AuthOp.Stores.users {w : List AuthOp} {db : AuthDb} (hw : ∀ o ∈ w, AuthOp.Stores hash o) :
    ∀ u' ∈ (applyAll authTables.backend w db).users.rows,
      (∃ u ∈ db.users.rows, u.id = u'.id ∧ u.passwordHash = u'.passwordHash) ∨
          hash = some u'.passwordHash := by
  refine applyAll_invariant (B := authTables.backend) (P := fun db' => ∀ u' ∈ db'.users.rows,
    (∃ u ∈ db.users.rows, u.id = u'.id ∧ u.passwordHash = u'.passwordHash) ∨
      hash = some u'.passwordHash) ?_ fun u hu => .inl ⟨u, hu, rfl, rfl⟩
  intro o ho db' hdb' u' hu'
  rcases AuthOp.mem_users_apply.1 hu' with ⟨v, hv, rfl⟩ | ⟨rfl, -⟩
  · rcases (hw o ho).onUser v with hkeep | hnew
    · rw [(o.onUser_same v).1, hkeep]
      exact hdb' v hv
    · exact .inr hnew
  · exact .inr (hw _ ho)

theorem AuthRequest.emits_stores {r : AuthRequest} (hr : ∀ e p n, r ≠ .register e p n)
    (hl : ∀ i e p, r ≠ .login i e p)
    (hc : ∀ t p, r ≠ .confirmPasswordReset t p) : (r.prog cfg).Emits (AuthOp.Stores hash) := by
  refine r.emits.mono fun o ho => ?_
  cases r with
  | register e p n => exact absurd rfl (hr e p n)
  | login i e p => exact absurd rfl (hl i e p)
  | confirmPasswordReset t p => exact absurd rfl (hc t p)
  | _ => cases o <;> trivial

end

/-- The writes made so far and the pending ones store `hash` only. -/
def StoresOnly (hash : Option String) (db : AuthDb) (s' : Session authTables.backend) : Prop :=
  (∀ o ∈ s'.dirty, AuthOp.Stores hash o) ∧ ∃ w, s'.db = applyAll authTables.backend w db ∧ ∀ o ∈ w,
    AuthOp.Stores hash o

section
variable {σ : Session authTables.backend}

theorem stores_of_emits {α : Type} {p : Auth α} {hash : Option String} {db : AuthDb}
    (h : p.Emits (AuthOp.Stores hash)) (hd : ∀ o ∈ σ.dirty, AuthOp.Stores hash o)
    (hdb : σ.db = db) :
    p.Ends (fun _ => StoresOnly hash db) (fun _ _ => True) σ := by
  subst hdb
  exact h.ends hd

theorem random_text (σ : Session authTables.backend) : (random : Auth String).Ends
    (fun text σ' => text = (σ.envs 0).text ∧ σ'.db = σ.db ∧ σ'.dirty = σ.dirty) (fun _ _ => True) σ :=
  ⟨rfl, rfl, rfl⟩

theorem register_stores (email password : String) (fullName : Option String) (hd : σ.dirty = []) :
    ((AuthRequest.register email password fullName).prog cfg).Ends
      (fun _ => StoresOnly (some (cfg.hashPassword (σ.envs 0).text password)) σ.db)
          (fun _ _ => True) σ := by
  simp only [AuthRequest.prog, AuthService.register, UserRepository.getByEmail,
    AuthService.hashPassword, Prog.bind_assoc']
  refine Prog.ends_query_bind ?_
  split
  · trivial
  simp only [Prog.bind_assoc']
  refine (random_text σ).bind ?_
  rintro _ σ₁ ⟨rfl, hdb, hdirty⟩
  refine stores_of_emits ?_ (by rw [hdirty, hd]; simp) hdb
  simp [UserRepository.add, AuthService.sendVerificationEmail, AuthService.sendEmail, uuid4, now,
    Prog.bind_assoc', AuthOp.Stores]

theorem reset_stores (newPassword : String) (hd : σ.dirty = []) :
    ((AuthRequest.confirmPasswordReset token newPassword).prog cfg).Ends
      (fun _ => StoresOnly (some (cfg.hashPassword (σ.envs 1).text newPassword)) σ.db)
          (fun _ _ => True) σ := by
  refine (resetPassword_ends cfg token newPassword σ).bind
    fun user σ₁ ⟨_, _, hdb, ops, hops, hdirty⟩ => ?_
  refine ⟨fun o ho => ?_, [], hdb, by simp⟩
  rw [hdirty, hd] at ho
  rcases List.mem_cons.1 ho with rfl | ho
  · rfl
  · obtain ⟨id, time, rfl⟩ := exists_of_revokes hops ho
    trivial

/-- What a check leaves when it lets the call pass. -/
theorem check_passes (identity : String) (σ : Session authTables.backend) :
    (AuthThrottle.check cfg identity).Ends
    (fun _ σ' => σ'.db = σ.db ∧ σ'.dirty = σ.dirty ∧ σ'.world.outside = σ.world.outside ∧
      σ'.envs 0 = σ.envs
        (if (World.incr (AuthThrottle.key identity) (σ.envs 0) σ.world).1 = 1 then 2 else 1))
    (fun _ σ' => σ'.world.outside = σ.world.outside) σ := by
  have refuse : ∀ n σ₁, (AuthThrottle.refuse cfg identity n).Ends (fun _ σ' => σ' = σ₁)
      (fun _ σ' => σ'.world.outside = σ₁.world.outside) σ₁ := by
    intro n σ₁
    rcases Int.lt_or_le cfg.authRateLimitPerMinute n with hgt | hle
    · rw [AuthThrottle.refuse_of_gt hgt]
      exact Prog.ends_bind_ok rfl rfl
    · rw [AuthThrottle.refuse_of_le hle]
      rfl
  rw [AuthThrottle.check_eq]
  refine Prog.ends_bind_ok rfl ?_
  by_cases hone : (World.incr (AuthThrottle.key identity) (σ.envs 0) σ.world).1 = 1
  · rw [hone, AuthThrottle.counted_one, if_pos rfl]
    refine Prog.ends_bind_ok rfl ((refuse _ _).mono ?_ fun _ _ h => h)
    rintro _ _ rfl
    exact ⟨rfl, rfl, rfl, rfl⟩
  · rw [AuthThrottle.counted_of_ne hone, if_neg hone]
    refine (refuse _ _).mono ?_ fun _ _ h => h
    rintro _ _ rfl
    exact ⟨rfl, rfl, rfl, rfl⟩

theorem issueTokens_stores (hash : Option String) (user : User) :
    (AuthService.issueTokens cfg user none >>= fun t => Prog.ret (AuthAnswer.tokens t)).Emits
        (AuthOp.Stores hash) :=
  (AuthService.issueTokens_emits (fun _ => trivial) user none).bind fun _ => trivial

theorem login_stores (clientIp email password : String) (hd : σ.dirty = []) :
    ((AuthRequest.login clientIp email password).prog cfg).Ends
      (fun _ => StoresOnly
          (AuthState.hashed cfg ⟨σ.db, σ.world⟩ ⟨.login clientIp email password, σ.envs⟩) σ.db)
              (fun _ _ => True) σ := by
  refine ((check_passes (clientIp ++ ":" ++ cfg.lower email) σ).mono (fun _ _ h => h)
    fun _ _ _ => trivial).bind ?_
  rintro _ σ₁ ⟨hdb, hdirty, -, henv⟩
  have hnone : ∀ o ∈ σ₁.dirty, ∀ hash, AuthOp.Stores hash o := by
    rw [hdirty, hd]
    simp
  simp only [AuthService.authenticate, UserRepository.getByEmail, AuthService.hashPassword,
    Prog.bind_assoc']
  refine Prog.ends_query_bind ?_
  split
  · simp only [Prog.bind_assoc']
    exact (random_text σ₁).bind fun _ _ _ => trivial
  split
  · trivial
  split
  · trivial
  split
  · simp only [Prog.bind_assoc']
    refine (random_text σ₁).bind ?_
    rintro _ σ₂ ⟨rfl, hdb₂, hdirty₂⟩
    rw [henv]
    refine stores_of_emits ?_ (fun o ho => hnone o (hdirty₂ ▸ ho) _) (hdb₂.trans hdb)
    exact ⟨rfl, issueTokens_stores _ _⟩
  · exact stores_of_emits (issueTokens_stores _ _) (fun o ho => hnone o ho _) hdb

end

/-- The only hash that a call stores is the one that it makes. -/
theorem call_stores (s : AuthState) (c : AuthCall) :
    ∃ w, (s.call cfg c).db = applyAll authTables.backend w s.db ∧ ∀ o ∈ w,
        AuthOp.Stores (s.hashed cfg c) o := by
  have hends : (c.req.prog cfg).Ends (fun _ => StoresOnly (s.hashed cfg c) s.db) (fun _ _ => True)
      (⟨s.db, [], s.world, c.envs⟩ : Session authTables.backend) := by
    obtain ⟨req, envs⟩ := c
    have others (hr : ∀ e p n, req ≠ .register e p n) (hl : ∀ i e p, req ≠ .login i e p)
        (hc : ∀ t p, req ≠ .confirmPasswordReset t p) : (req.prog cfg).Ends
          (fun _ => StoresOnly (s.hashed cfg ⟨req, envs⟩) s.db) (fun _ _ => True)
              (⟨s.db, [], s.world, envs⟩ : Session authTables.backend) :=
      stores_of_emits (AuthRequest.emits_stores hr hl hc) (by simp) rfl
    cases req with
    | register email password fullName => exact register_stores email password fullName rfl
    | login clientIp email password => exact login_stores clientIp email password rfl
    | confirmPasswordReset token newPassword => exact reset_stores newPassword rfl
    | refresh payload cookie => exact others (by simp) (by simp) (by simp)
    | logout payload cookie => exact others (by simp) (by simp) (by simp)
    | verifyEmail token => exact others (by simp) (by simp) (by simp)
    | requestPasswordReset clientIp email => exact others (by simp) (by simp) (by simp)
  rcases Prog.Ends.scope (s := s) hends with ⟨a, σ, db, ⟨hdirty, w, hw, hstores⟩, hflush, hs⟩
    | ⟨e, σ, -, hs⟩
  · refine ⟨w ++ σ.dirty, ?_, List.forall_mem_append.2 ⟨hstores, hdirty⟩⟩
    rw [AuthState.call, hs, applyAll_append, ← hw]
    exact flushAll_eq hflush
  · refine ⟨[], ?_, by simp⟩
    rw [AuthState.call, hs]
    rfl

theorem hashOf_call {hash : String} (h : (s.call cfg c).db.hashOf userId = some hash) :
    s.db.hashOf userId = some hash ∨ s.hashed cfg c = some hash := by
  obtain ⟨u', hu', hid, rfl⟩ := AuthDb.hashOf_eq_some.1 h
  obtain ⟨w, hw, hstores⟩ := @call_stores cfg s c
  rw [hw] at hu'
  rcases AuthOp.Stores.users hstores u' hu' with ⟨u, hu, hid', hhash⟩ | hnew
  · exact .inl (AuthDb.hashOf_eq_some.2 ⟨u, hu, hid'.trans hid, hhash⟩)
  · exact .inr hnew

theorem exists_hashOf_call {hash : String} (h : s.db.hashOf userId = some hash) : ∃ hash',
    (s.call cfg c).db.hashOf userId = some hash' := by
  obtain ⟨u, hu, rfl, -⟩ := AuthDb.hashOf_eq_some.1 h
  obtain ⟨u', hu', hid, -⟩ := (@call_grows cfg s c).users u hu
  exact ⟨u'.passwordHash, AuthDb.hashOf_eq_some.2 ⟨u', hu', hid, rfl⟩⟩

/-! ### What the calls do -/

theorem confirm_ends (newPassword : String) (s : AuthState) (envs : Nat → Env Unit) :
    ((AuthRequest.confirmPasswordReset token newPassword).prog cfg).Ends
      (fun _ σ => ∃ id hash ops,
        token.Valid AuthService.resetPurpose (max s.world.clock (envs 0).time) id ∧
        s.db.hashOf id = some hash ∧ token.claim "pfp" = some (.text (cfg.fingerprint hash)) ∧
          σ.db = s.db ∧
        σ.dirty = .setPasswordHash id (cfg.hashPassword (envs 1).text newPassword) :: ops ∧
        ∀ o ∈ ops, ∃ id time, o = AuthOp.setRevokedAt id time)
      (fun _ _ => True) (⟨s.db, [], s.world, envs⟩ : Session authTables.backend) := by
  refine (resetPassword_ends cfg token newPassword _).bind ?_
  rintro user σ ⟨hvalid, ⟨u, hu, hid, hpfp⟩, hdb, ops, hops, hdirty⟩
  refine ⟨user.id, u.passwordHash, ops, hvalid, AuthDb.hashOf_eq_some.2 ⟨u, hu, hid, rfl⟩, hpfp,
    hdb, hdirty, fun o ho => ?_⟩
  exact exists_of_revokes hops ho

theorem users_applyAll_revoke {ops : List AuthOp}
    (hops : ∀ o ∈ ops, ∃ id time, o = AuthOp.setRevokedAt id time) (db : AuthDb) :
    (applyAll authTables.backend ops db).users = db.users := by
  refine applyAll_invariant (B := authTables.backend) (P := fun db' => db'.users = db.users)
    (fun o ho db' h => ?_) rfl
  obtain ⟨id, time, rfl⟩ := hops o ho
  exact h

theorem AuthDb.mem_setPasswordHash {db : AuthDb} {id : Uuid} {hash : String} {u' : User} :
    u' ∈ ((AuthOp.setPasswordHash id hash).apply db).users.rows ↔
      ∃ u ∈ db.users.rows, (if u.id == id then { u with passwordHash := hash } else u) = u' :=
  AuthOp.mem_users_apply.trans (or_iff_left fun h => by cases h.1)

/-- A token that is accepted is bound to the hash that its user has; the call replaces this hash and
no other. -/
theorem AuthState.Accepts.spec (h : s.Accepts cfg c token) : ∃ id hash,
    token.Valid AuthService.resetPurpose (s.time c) id ∧
    s.db.hashOf id = some hash ∧ token.claim "pfp" = some (.text (cfg.fingerprint hash)) ∧
    (s.call cfg c).db.hashOf id = s.hashed cfg c ∧
    ∀ u, u.id ≠ id → (u ∈ (s.call cfg c).db.users.rows ↔ u ∈ s.db.users.rows) := by
  obtain ⟨⟨newPassword, hreq⟩, a, hok⟩ := h
  obtain ⟨req, envs⟩ := c
  obtain rfl : req = .confirmPasswordReset token newPassword := hreq
  rcases (@confirm_ends cfg token newPassword s envs).scope with
    ⟨_, σ, db, ⟨id, hash, ops, hvalid, hhash, hpfp, hdb, hdirty, hops⟩, hflush, hs⟩ | ⟨e, σ, -, hs⟩
  · have husers : (s.call cfg ⟨.confirmPasswordReset token newPassword, envs⟩).db.users =
        ((AuthOp.setPasswordHash id (cfg.hashPassword (envs 1).text newPassword)).apply
            s.db).users := by
      have hcall := flushAll_eq hflush
      rw [hdirty, hdb] at hcall
      rw [AuthState.call, hs]
      dsimp only
      rw [hcall]
      exact users_applyAll_revoke hops _
    refine ⟨id, hash, hvalid, hhash, hpfp, ?_, fun u hu => ?_⟩
    · obtain ⟨u, hmem, hid, -⟩ := AuthDb.hashOf_eq_some.1 hhash
      refine AuthDb.hashOf_eq_some.2 ⟨_, husers ▸ AuthDb.mem_setPasswordHash.2 ⟨u, hmem, rfl⟩, ?_⟩
      simp [hid]
    · rw [husers, AuthDb.mem_setPasswordHash]
      constructor
      · rintro ⟨v, hv, rfl⟩
        split at hu <;> rename_i heq
        · exact absurd (beq_iff_eq.1 heq) hu
        · rwa [if_neg heq]
      · exact fun hmem => ⟨u, hmem, by simp [hu]⟩
  · rw [AuthState.answer, hs] at hok
    cases hok

/-- In the world, a reset token has been sent that is bound to the user's hash. -/
def AuthState.Mailed (cfg : Config) (s : AuthState) (email : String)
    (w : World (List EmailMessage)) : Prop :=
  ∃ user ∈ s.db.users.rows, user.email = cfg.lower (cfg.lower email) ∧ ∃ mail time,
    w.outside = s.world.outside ++ [mail] ∧
    mail.token = createActionToken user.id AuthService.resetPurpose AuthService.resetTtl
      [("pfp", .text (cfg.fingerprint user.passwordHash))] time

theorem request_ends (clientIp email : String) (s : AuthState) (envs : Nat → Env Unit) :
    ((AuthRequest.requestPasswordReset clientIp email).prog cfg).Ends
      (fun _ σ => σ.world.outside = s.world.outside ∨ s.Mailed cfg email σ.world)
        (fun _ σ => σ.world.outside = s.world.outside)
      (⟨s.db, [], s.world, envs⟩ : Session authTables.backend) := by
  refine (check_passes (clientIp ++ ":reset") _).bind ?_
  rintro _ σ₁ ⟨hdb, -, hout, -⟩
  refine Prog.Ends.bind
    ((requestPasswordReset_ends cfg email σ₁).mono (fun _ _ h => h) fun _ _ h => h.elim) ?_
  rintro _ σ₂ (hnone | ⟨user, huser, hemail, mail, hsent, -, htoken⟩)
  · exact .inl (hnone.trans hout)
  · rw [hdb] at huser
    rw [hout] at hsent
    exact .inr ⟨user, huser, hemail, mail, _, hsent, htoken⟩

/-- The token was sent to the user, for the hash that the user had. -/
structure Jwt.SentFor (token : Jwt) (cfg : Config) (userId : Uuid) (hash : String) : Prop where
  sub : token.claim "sub" = some (.uuid userId)
  pfp : token.claim "pfp" = some (.text (cfg.fingerprint hash))

theorem AuthState.Sends.sentFor (h : s.Sends cfg c token userId) : ∃ hash,
    s.db.hashOf userId = some hash ∧ token.SentFor cfg userId hash := by
  obtain ⟨clientIp, email, hreq, ⟨u, hu, rfl, hemail⟩, mail, hmail, rfl⟩ := h
  obtain ⟨req, envs⟩ := c
  obtain rfl : req = .requestPasswordReset clientIp email := hreq
  have hworld : (s.call cfg ⟨.requestPasswordReset clientIp email, envs⟩).world.outside =
      s.world.outside ∨
      s.Mailed cfg email (s.call cfg ⟨.requestPasswordReset clientIp email, envs⟩).world := by
    unfold AuthState.call
    rcases (@request_ends cfg clientIp email s envs).scope with
      ⟨a, σ, db, hq, -, hs⟩ | ⟨e, σ, hout | ⟨a, hq, -⟩, hs⟩
    · rwa [hs]
    · rw [hs]
      exact .inl hout
    · rwa [hs]
  rcases hworld with hnone | ⟨user, huser, hemail', mail', time, hsent, htoken⟩
  · rw [hnone] at hmail
    simp at hmail
  · obtain rfl : u = user :=
      Table.eq_of_clash hu huser (User.clash_iff.2 (.inr (hemail.trans hemail'.symm)))
    rw [hsent] at hmail
    obtain rfl : mail' = mail := by simpa using hmail
    refine ⟨u.passwordHash, AuthDb.hashOf_eq_some.2 ⟨u, hu, rfl, rfl⟩, ?_, ?_⟩
    · rw [htoken]
      exact (@made_createActionToken _ _ cfg _ .reset _ (by simp) rfl).sub
    · rw [htoken]
      simp [createActionToken, Jwt.claim, Claims.update, Claims.get_set]

theorem AuthState.Sends.hashOf_call {hash : String} (h : s.Sends cfg c token userId)
    (hhash : s.db.hashOf userId = some hash) :
    (s.call cfg c).db.hashOf userId = some hash := by
  obtain ⟨clientIp, email, hreq, -⟩ := h
  have hnone : s.hashed cfg c = none := by
    unfold AuthState.hashed
    rw [hreq]
  obtain ⟨hash', hhash'⟩ := @exists_hashOf_call cfg _ c _ _ hhash
  rcases TrafficPlatform.hashOf_call hhash' with hold | hnew
  · rw [hhash', hold.symm.trans hhash]
  · rw [hnone] at hnew
    cases hnew

theorem Jwt.SentFor.of_accepts {hash : String} (h : token.SentFor cfg userId hash)
    (ha : s.Accepts cfg c token) :
    (∃ hash', s.db.hashOf userId = some hash' ∧ cfg.fingerprint hash' = cfg.fingerprint hash) ∧
        s.ResetsOnly cfg c token userId := by
  obtain ⟨id, hash', hvalid, hhash, hbound, huser, hothers⟩ := ha.spec
  obtain rfl : id = userId := by
    have heq := hvalid.sub.symm.trans h.sub
    simpa using heq
  have hf : cfg.fingerprint hash' = cfg.fingerprint hash := by
    have heq := hbound.symm.trans h.pfp
    simpa using heq
  exact ⟨⟨hash', hhash, hf⟩, hvalid.live, huser, hothers⟩

theorem sub_of_claim (h : token.claim "sub" = some (.uuid userId)) : token.sub = some userId := by
  cases token with
  | signed claims =>
    unfold Jwt.claim at h
    unfold Jwt.sub
    dsimp only at h ⊢
    rw [h]
  | other text => cases h

/-! ### Stale fingerprints -/

namespace Hashing

variable {p : Hashing} {f hash : String} {calls : List AuthCall}

theorem run_fst (p : Hashing) (calls : List AuthCall) : (run (next cfg) p calls).1 =
    run (AuthState.call cfg) p.1 calls := by
  induction calls generalizing p with
  | nil => rfl
  | cons c calls ih => exact ih (next cfg p c)

/-- The fingerprints of the stored hashes are known. -/
def Known (cfg : Config) (p : Hashing) : Prop := ∀ id hash, p.1.db.hashOf id = some hash →
    cfg.fingerprint hash ∈ p.2

theorem known_initial (s : AuthState) : Known cfg (s, s.fingerprints cfg) := by
  intro id hash h
  obtain ⟨u, hu, -, rfl⟩ := AuthDb.hashOf_eq_some.1 h
  exact List.mem_map.2 ⟨u, hu, rfl⟩

theorem mem_fingerprint (h : p.1.hashed cfg c = some hash) :
    cfg.fingerprint hash ∈ p.1.fingerprint cfg c :=
  Option.map_eq_some_iff.2 ⟨hash, h, rfl⟩

theorem Known.next (h : Known cfg p) (c : AuthCall) : Known cfg (next cfg p c) := by
  intro id hash hhash
  rcases hashOf_call hhash with hold | hnew
  · exact List.mem_append_left _ (h id hash hold)
  · exact List.mem_append_right _ (Option.mem_toList.2 (mem_fingerprint hnew))

theorem Stale.next (h : Stale cfg f userId p) (hfresh : Fresh cfg p c) :
    Stale cfg f userId (next cfg p c) := by
  refine ⟨List.mem_append_left _ h.1, fun hash hhash => ?_⟩
  rcases hashOf_call hhash with hold | hnew
  · exact h.2 hash hold
  · rintro rfl
    exact hfresh _ (mem_fingerprint hnew) h.1

theorem Stale.run (h : Stale cfg f userId p) (hfresh : Meets (Hashing.next cfg) (Fresh cfg) p calls) :
    Stale cfg f userId (run (Hashing.next cfg) p calls) := by
  induction calls generalizing p with
  | nil => exact h
  | cons c calls ih => exact ih (h.next hfresh.1) hfresh.2

/-- Once the hash changes its fingerprint is stale, and the hash does not come back. -/
theorem unchanged_or_stale (hknown : cfg.fingerprint hash ∈ p.2)
    (h : p.1.db.hashOf userId = some hash) (hfresh : Meets (next cfg) (Fresh cfg) p calls) :
      (run (next cfg) p calls).1.db.hashOf userId = some hash ∨
      Stale cfg (cfg.fingerprint hash) userId (run (next cfg) p calls) := by
  induction calls generalizing p with
  | nil => exact .inl h
  | cons c calls ih =>
    by_cases hsame : (p.1.call cfg c).db.hashOf userId = some hash
    · exact ih (List.mem_append_left _ hknown) hsame hfresh.2
    · have hstale : Stale cfg (cfg.fingerprint hash) userId (next cfg p c) := by
        refine ⟨List.mem_append_left _ hknown, fun hash' hhash' => ?_⟩
        rcases hashOf_call hhash' with hold | hnew
        · obtain rfl : hash = hash' := Option.some.inj (h.symm.trans hold)
          exact absurd hhash' hsame
        · intro heq
          exact hfresh.1 _ (mem_fingerprint hnew) (heq ▸ hknown)
      exact .inr (hstale.run hfresh.2)

theorem Known.run (h : Known cfg p) (calls : List AuthCall) :
    Known cfg (run (Hashing.next cfg) p calls) :=
  run_invariant (fun _ c h => h.next c) h calls

theorem mem_run {f : String} (h : f ∈ p.2) (calls : List AuthCall) :
    f ∈ (run (Hashing.next cfg) p calls).2 :=
  run_invariant (I := fun p : Hashing => f ∈ p.2) (fun _ _ h => List.mem_append_left _ h) h calls

theorem hashOf_of_accepts {before after : List AuthCall} (htoken : token.SentFor cfg userId hash)
    (hknown : cfg.fingerprint hash ∈ p.2) (h : p.1.db.hashOf userId = some hash)
    (hfresh : Meets (Hashing.next cfg) (Fresh cfg) p (before ++ after))
    (ha : (run (Hashing.next cfg) p (before ++ after)).1.Accepts cfg c token) :
    (run (Hashing.next cfg) p before).1.db.hashOf userId = some hash := by
  obtain ⟨hbefore, hafter⟩ := meets_append.1 hfresh
  rcases unchanged_or_stale hknown h hbefore with hsame | hstale
  · exact hsame
  · rw [run_append] at ha
    obtain ⟨⟨hash', hhash', hf⟩, -⟩ := htoken.of_accepts ha
    exact absurd hf ((hstale.run hafter).2 hash' hhash')

/-- A reset for the user changes the hash, and so no token that was sent before is accepted later. -/
theorem not_accepts_before {before after : List AuthCall} {c' : AuthCall} {token' : Jwt}
    (htoken : token.SentFor cfg userId hash) (hknown : cfg.fingerprint hash ∈ p.2)
    (h : p.1.db.hashOf userId = some hash)
    (hfresh : Meets (Hashing.next cfg) (Fresh cfg) p (before ++ c' :: after))
    (ha : (run (Hashing.next cfg) p (before ++ c' :: after)).1.Accepts cfg c token)
    (hsub : token'.sub = some userId) :
    ¬ (run (Hashing.next cfg) p before).1.Accepts cfg c' token' := by
  intro haccepts
  obtain ⟨id, -, hvalid, -, -, huser, -⟩ := haccepts.spec
  obtain rfl : id = userId := Option.some.inj ((sub_of_claim hvalid.sub).symm.trans hsub)
  have hnew : (run (Hashing.next cfg) p before).1.hashed cfg c' = some hash := by
    rw [← huser]
    have hsplit : before ++ c' :: after = (before ++ [c']) ++ after := by simp
    rw [hsplit] at hfresh ha
    have hafter := hashOf_of_accepts htoken hknown h hfresh ha
    rwa [run_append] at hafter
  have hfresh' : Fresh cfg (run (Hashing.next cfg) p before) c' := (meets_append.1 hfresh).2.1
  exact hfresh' _ (mem_fingerprint hnew) (mem_run hknown before)

theorem singleUse {between later : List AuthCall} {reset : AuthCall}
    (htoken : token.SentFor cfg userId hash) (hknown : cfg.fingerprint hash ∈ p.2)
    (h : p.1.db.hashOf userId = some hash)
    (hfresh : Meets (Hashing.next cfg) (Fresh cfg) p (between ++ reset :: later))
    (hreset : (run (AuthState.call cfg) p.1 between).Accepts cfg reset token) :
    SingleUse cfg p.1 token userId between reset later := by
  refine ⟨(htoken.of_accepts hreset).2,
    fun cs cs' hcs => ?_, fun cs c cs' token' hcs hsub => ?_, fun cs c cs' hcs haccepts => ?_⟩
  · subst hcs
    rw [← run_fst] at hreset ⊢
    rw [h]
    exact hashOf_of_accepts htoken hknown h (meets_append.1 hfresh).1 hreset
  · subst hcs
    rw [← run_fst] at hreset ⊢
    exact not_accepts_before htoken hknown h (meets_append.1 hfresh).1 hreset hsub
  · -- the second acceptance would come after a reset for the user
    subst hcs
    rw [← run_fst] at hreset haccepts
    have hsplit : between ++ reset :: (cs ++ c :: cs') = (between ++ reset :: cs) ++ c :: cs' := by simp
    rw [hsplit] at hfresh
    exact not_accepts_before htoken hknown h (meets_append.1 hfresh).1 haccepts
      (sub_of_claim htoken.sub) hreset

end Hashing

/-- Where no two password hashes share a fingerprint, a reset token that has been sent to a user is
accepted before it expires only and for this user only, not after the hash of the user has changed,
and once. -/
theorem reset_tokens_single_use (cfg : Config) (s : AuthState)
    (before between later : List AuthCall) (request reset : AuthCall)
    (hsalted : Salted cfg s (before ++ request :: (between ++ reset :: later))) (token : Jwt)
    (userId : Uuid) (hsends : (run (AuthState.call cfg) s before).Sends cfg request token userId)
    (haccepts : (run (AuthState.call cfg) s (before ++ request :: between)).Accepts cfg reset token) :
    SingleUse cfg (run (AuthState.call cfg) s (before ++ [request])) token userId between
        reset later := by
  obtain ⟨hash, hsent, htoken⟩ := hsends.sentFor
  let p : Hashing := run (Hashing.next cfg) (s, s.fingerprints cfg) before
  have hp : p.1 = run (AuthState.call cfg) s before := Hashing.run_fst _ before
  have hstate : run (AuthState.call cfg) s (before ++ [request]) = (Hashing.next cfg p request).1 := by
    rw [run_append, ← hp]
    rfl
  have hknown : cfg.fingerprint hash ∈ p.2 :=
    (Hashing.known_initial s).run before userId hash (hp ▸ hsent)
  have hhash : (Hashing.next cfg p request).1.db.hashOf userId = some hash := by
    rw [← hp] at hsends hsent
    exact hsends.hashOf_call hsent
  rw [run_append, run_cons, ← hp] at haccepts
  rw [hstate]
  exact Hashing.singleUse htoken (List.mem_append_left _ hknown) hhash
    (meets_append.1 hsalted).2.2 haccepts

def sampleRequestReset : AuthCall :=
  ⟨.requestPasswordReset "10.0.0.1" "ada@example.com", fun _ => sampleEnv 1 "first"⟩

def sampleConfirmReset (salt : String) : AuthCall :=
  ⟨.confirmPasswordReset sampleResetToken "new", fun _ => sampleEnv 2 salt⟩

/-- The token is used, and tried again. -/
theorem reset_tokens_single_use_twice :
    SingleUse sampleConfig
      (run (AuthState.call sampleConfig) ⟨sampleDb, sampleWorld⟩ ([] ++ [sampleRequestReset]))
        sampleResetToken 1 []
      (sampleConfirmReset "second") [sampleConfirmReset "third"] := by
  refine reset_tokens_single_use sampleConfig ⟨sampleDb, sampleWorld⟩ [] []
    [sampleConfirmReset "third"] sampleRequestReset
    (sampleConfirmReset "second") ?_ sampleResetToken 1 ?_ ?_
  · refine ⟨fun f hf => ?_, fun f hf => ?_, fun f hf => ?_, trivial⟩
    · cases hf
    · cases hf
      decide +kernel
    · cases hf
      decide +kernel
  · exact ⟨"10.0.0.1", "ada@example.com", rfl, ⟨sampleUser, by decide, rfl, rfl⟩, _, rfl, rfl⟩
  · exact ⟨⟨"new", rfl⟩, _, rfl⟩

end TrafficPlatform
