import TrafficPlatform.Auth
import TrafficPlatform.Kit.Interleave

/-!
# What the authentication requests write

A row write acts on each user and each refresh token (`AuthOp.onUser`, `AuthOp.onToken`) and may
add one. From it: tokens never go away, never change their owner, family, hash or expiry and are
never un-revoked (`AuthDb.Grows`), and the rows that each request writes (`AuthRequest.Writes`),
whatever other transactions commit between its statements.
-/

namespace TrafficPlatform
open Kit

namespace AuthOp

/-- The effect of a write on a refresh token that is there. -/
def onToken : AuthOp → RefreshToken → RefreshToken
  | setRevokedAt id time, t => if t.id == id then { t with revokedAt := some time } else t
  | setRotatedTo id successor, t => if t.id == id then { t with rotatedTo := successor } else t
  | _, t => t

/-- The effect of a write on a user that is there. -/
def onUser : AuthOp → User → User
  | setPasswordHash id h, u => if u.id == id then { u with passwordHash := h } else u
  | setEmailVerified id, u => if u.id == id then { u with isEmailVerified := true } else u
  | _, u => u

theorem mem_tokens_apply {o : AuthOp} {db : AuthDb} {t' : RefreshToken} :
    t' ∈ (o.apply db).refreshTokens.rows ↔ (∃ t ∈ db.refreshTokens.rows, o.onToken t = t') ∨
      (o = .addToken t' ∧ db.hasUser t'.userId = true ∧ db.refreshTokens.admits t' = true) := by
  cases o with
  | addUser u => simp [apply, onToken, AuthDb.addUser]
  | setPasswordHash id h => simp [apply, onToken, AuthDb.setUser]
  | setEmailVerified id => simp [apply, onToken, AuthDb.setUser]
  | setRevokedAt id time => simp [apply, onToken, AuthDb.setToken, Table.mem_update]
  | setRotatedTo id successor => simp [apply, onToken, AuthDb.setToken, Table.mem_update]
  | addToken t =>
    simp only [apply, onToken, AuthDb.addToken, exists_eq_right, addToken.injEq]
    split
    · rename_i h
      rw [Table.mem_insert_iff]
      exact or_congr_right ⟨fun e => ⟨e.1, e.1 ▸ h, e.2⟩, fun e => ⟨e.1, e.2.2⟩⟩
    · rename_i h
      exact ⟨.inl, fun h' => h'.elim id fun e => absurd (e.1 ▸ e.2.1) h⟩

theorem mem_users_apply {o : AuthOp} {db : AuthDb} {u' : User} :
    u' ∈ (o.apply db).users.rows ↔ (∃ u ∈ db.users.rows, o.onUser u = u') ∨
      (o = .addUser u' ∧ db.users.admits u' = true) := by
  cases o with
  | addUser u =>
    simp only [apply, onUser, AuthDb.addUser, exists_eq_right, addUser.injEq]
    exact Table.mem_insert_iff
  | setPasswordHash id h => simp [apply, onUser, AuthDb.setUser, Table.mem_update]
  | setEmailVerified id => simp [apply, onUser, AuthDb.setUser, Table.mem_update]
  | setRevokedAt id time => simp [apply, onUser, AuthDb.setToken]
  | setRotatedTo id successor => simp [apply, onUser, AuthDb.setToken]
  | addToken t =>
    simp only [apply, onUser, AuthDb.addToken]
    split <;> simp

end AuthOp

/-! ### Rows over time -/

/-- `t'` is `t` up to its revocation and its successor. -/
structure RefreshToken.Same (t t' : RefreshToken) : Prop where
  id : t'.id = t.id
  userId : t'.userId = t.userId
  familyId : t'.familyId = t.familyId
  tokenHash : t'.tokenHash = t.tokenHash
  expiresAt : t'.expiresAt = t.expiresAt

/-- `t'` is `t` at a later time: revocations and successors stay. -/
structure RefreshToken.Evolves (t t' : RefreshToken) : Prop extends RefreshToken.Same t t' where
  revoked : t.revokedAt.isSome → t'.revokedAt.isSome
  rotated : t.rotatedTo.isSome → t'.rotatedTo.isSome

theorem RefreshToken.Same.trans {a b c : RefreshToken} (h : a.Same b) (h' : b.Same c) : a.Same c :=
  ⟨h'.id.trans h.id, h'.userId.trans h.userId, h'.familyId.trans h.familyId,
    h'.tokenHash.trans h.tokenHash, h'.expiresAt.trans h.expiresAt⟩

theorem RefreshToken.Evolves.refl (t : RefreshToken) : t.Evolves t :=
  ⟨⟨rfl, rfl, rfl, rfl, rfl⟩, fun h => h, fun h => h⟩

theorem RefreshToken.Evolves.trans {a b c : RefreshToken} (h : a.Evolves b) (h' : b.Evolves c) :
    a.Evolves c :=
  ⟨h.toSame.trans h'.toSame, fun x => h'.revoked (h.revoked x), fun x => h'.rotated (h.rotated x)⟩

/-- The write does not take a successor away. -/
def AuthOp.Keeps : AuthOp → Prop
  | .setRotatedTo _ successor => successor.isSome
  | _ => True

/-- The write leaves the successors alone, and a token it adds is unrevoked and has none. -/
def AuthOp.Plain : AuthOp → Prop
  | .addToken t => t.revokedAt = none ∧ t.rotatedTo = none
  | .setRotatedTo _ _ => False
  | _ => True

/-- The write adds no token and leaves the successors alone. -/
def AuthOp.AddsNone : AuthOp → Prop
  | .addToken _ => False
  | .setRotatedTo _ _ => False
  | _ => True

theorem AuthOp.AddsNone.plain {o : AuthOp} (h : o.AddsNone) : o.Plain := by
  cases o <;> trivial

theorem AuthOp.Plain.keeps {o : AuthOp} (h : o.Plain) : o.Keeps := by
  cases o <;> trivial

theorem AuthOp.onToken_same (o : AuthOp) (t : RefreshToken) : t.Same (o.onToken t) := by
  cases o with
  | setRevokedAt id time => simp only [onToken]; split <;> exact ⟨rfl, rfl, rfl, rfl, rfl⟩
  | setRotatedTo id successor => simp only [onToken]; split <;> exact ⟨rfl, rfl, rfl, rfl, rfl⟩
  | _ => exact ⟨rfl, rfl, rfl, rfl, rfl⟩

theorem AuthOp.Keeps.onToken {o : AuthOp} (h : o.Keeps) (t : RefreshToken) :
    t.Evolves (o.onToken t) := by
  refine ⟨o.onToken_same t, ?_, ?_⟩
  · cases o with
    | setRevokedAt id time => simp only [AuthOp.onToken]; split <;> simp_all
    | setRotatedTo id successor => simp only [AuthOp.onToken]; split <;> exact fun x => x
    | _ => exact fun x => x
  · cases o with
    | setRevokedAt id time => simp only [AuthOp.onToken]; split <;> exact fun x => x
    | setRotatedTo id successor =>
      simp only [AuthOp.onToken]; split
      · exact fun _ => h
      · exact fun x => x
    | _ => exact fun x => x

theorem AuthOp.onUser_same (o : AuthOp) (u : User) :
    (o.onUser u).id = u.id ∧ (o.onUser u).email = u.email ∧ (o.onUser u).isActive = u.isActive := by
  cases o with
  | setPasswordHash id h => simp only [onUser]; split <;> exact ⟨rfl, rfl, rfl⟩
  | setEmailVerified id => simp only [onUser]; split <;> exact ⟨rfl, rfl, rfl⟩
  | _ => exact ⟨rfl, rfl, rfl⟩

/-- How the database may change: users keep their id and their status, tokens evolve. -/
structure AuthDb.Grows (db db' : AuthDb) : Prop where
  users : ∀ u ∈ db.users.rows, ∃ u' ∈ db'.users.rows, u'.id = u.id ∧ u'.isActive = u.isActive
  tokens : ∀ t ∈ db.refreshTokens.rows, ∃ t' ∈ db'.refreshTokens.rows, t.Evolves t'

namespace AuthDb.Grows

theorem refl (db : AuthDb) : db.Grows db :=
  ⟨fun u hu => ⟨u, hu, rfl, rfl⟩, fun t ht => ⟨t, ht, .refl t⟩⟩

theorem trans {a b c : AuthDb} (h : a.Grows b) (h' : b.Grows c) : a.Grows c := by
  refine ⟨fun u hu => ?_, fun t ht => ?_⟩
  · obtain ⟨u', hu', hi, ha⟩ := h.users u hu
    obtain ⟨u'', hu'', hi', ha'⟩ := h'.users u' hu'
    exact ⟨u'', hu'', hi'.trans hi, ha'.trans ha⟩
  · obtain ⟨t', ht', he⟩ := h.tokens t ht
    obtain ⟨t'', ht'', he'⟩ := h'.tokens t' ht'
    exact ⟨t'', ht'', he.trans he'⟩

theorem hasUser {db db' : AuthDb} (h : db.Grows db') {id : Uuid} (hu : db.hasUser id = true) :
    db'.hasUser id = true := by
  simp only [AuthDb.hasUser, List.any_eq_true, beq_iff_eq] at hu ⊢
  obtain ⟨u, hu, rfl⟩ := hu
  obtain ⟨u', hu', hi, -⟩ := h.users u hu
  exact ⟨u', hu', hi⟩

theorem apply {o : AuthOp} (h : o.Keeps) (db : AuthDb) : db.Grows (o.apply db) := by
  refine ⟨fun u hu => ?_, fun t ht => ?_⟩
  · obtain ⟨hi, -, ha⟩ := o.onUser_same u
    exact ⟨o.onUser u, AuthOp.mem_users_apply.2 (.inl ⟨u, hu, rfl⟩), hi, ha⟩
  · exact ⟨o.onToken t, AuthOp.mem_tokens_apply.2 (.inl ⟨t, ht, rfl⟩), h.onToken t⟩

theorem applyAll {w : List AuthOp} (h : ∀ o ∈ w, o.Keeps) (db : AuthDb) :
    db.Grows (applyAll authTables.backend w db) :=
  applyAll_invariant (B := authTables.backend) (P := db.Grows)
    (fun _ ho _ hp => hp.trans (apply (h _ ho) _))
    (.refl db)

end AuthDb.Grows

theorem mem_tokens_applyAll {w : List AuthOp} {db : AuthDb} {t : RefreshToken}
    (ht : t ∈ db.refreshTokens.rows) :
    ∃ t' ∈ (applyAll authTables.backend w db).refreshTokens.rows, t.Same t' := by
  induction w generalizing db t with
  | nil => exact ⟨t, ht, rfl, rfl, rfl, rfl, rfl⟩
  | cons o w ih =>
    have hm : o.onToken t ∈ (o.apply db).refreshTokens.rows :=
      AuthOp.mem_tokens_apply.2 (.inl ⟨t, ht, rfl⟩)
    obtain ⟨t', ht', h⟩ := ih hm
    exact ⟨t', ht', (o.onToken_same t).trans h⟩

/-! ### Ownership -/

/-- A token that a transaction has inserted clashes with no committed one. -/
def AuthOp.Own : AuthOp → AuthDb → Prop
  | .addToken t, db => db.refreshTokens.admits t = true
  | _, _ => True

theorem AuthOp.own_of_check (o : AuthOp) (w : List AuthOp) (db : AuthDb)
    (h : o.check (applyAll authTables.backend w db) = .ok ()) : o.Own db := by
  cases o with
  | addToken t =>
    simp only [check] at h
    split at h
    · rename_i hc
      rw [Bool.and_eq_true] at hc
      refine Table.admits_iff.2 fun a ha hclash => ?_
      obtain ⟨a', ha', hs⟩ := mem_tokens_applyAll (w := w) ha
      refine Table.admits_iff.1 hc.2 a' ha' ?_
      rw [RefreshToken.clash_iff] at hclash ⊢
      rwa [hs.id, hs.tokenHash]
    · cases h
  | _ => trivial

theorem AuthOp.own_stable (o o' : AuthOp) (db : AuthDb) (hk : ∀ key ∈ o.keys, key ∉ o'.keys)
    (h : o.Own db) : o.Own (o'.apply db) := by
  cases o with
  | addToken t =>
    refine Table.admits_iff.2 fun a ha hclash => ?_
    rcases mem_tokens_apply.1 ha with ⟨b, hb, rfl⟩ | ⟨rfl, -, -⟩
    · refine Table.admits_iff.1 h b hb ?_
      rw [RefreshToken.clash_iff] at hclash ⊢
      rwa [(o'.onToken_same b).id, (o'.onToken_same b).tokenHash] at hclash
    · rw [RefreshToken.clash_iff] at hclash
      rcases hclash with hid | hhash
      · exact hk (.tokenRow t.id) (by simp [keys]) (by simp [keys, hid])
      · exact hk (.tokenHash t.tokenHash) (by simp [keys]) (by simp [keys, hhash])
  | _ => trivial

/-! ### The requests -/

/-- `new` is a token that `t` hands out for `owner`, not revoked and without a successor, that the
database admits. -/
structure AuthDb.Issues (cfg : Config) (db : AuthDb) (t : IssuedTokens) (owner : Uuid)
    (new : RefreshToken) : Prop where
  userId : new.userId = owner
  tokenHash : new.tokenHash = cfg.hashToken t.refreshToken
  revokedAt : new.revokedAt = none
  rotatedTo : new.rotatedTo = none
  admits : db.refreshTokens.admits new = true
  hasUser : db.hasUser owner = true

/-- The exchange of the refresh token `raw` for `t`: its row is there, and the writes add the
successor in the same family, revoke the row and link it to the successor. -/
def Exchanges (cfg : Config) (raw : String) (t : IssuedTokens) (w : List AuthOp) (db : AuthDb) : Prop :=
  ∃ row ∈ db.refreshTokens.rows, row.tokenHash = cfg.hashToken raw ∧ ∃ new time,
    db.Issues cfg t row.userId new ∧ new.familyId = row.familyId ∧
    w = [.addToken new, .setRevokedAt row.id time, .setRotatedTo row.id (some new.id)]

/-- What a request that returns has written: a login adds a token, a refresh exchanges one, the
others add none. -/
def AuthRequest.Writes (cfg : Config) : AuthRequest → AuthAnswer → List AuthOp → AuthDb → Prop
  | .login _ _ _, a, w, db => ∃ t userId new ops, a = .tokens t ∧ db.Issues cfg t userId new ∧
      (∀ o ∈ ops, o.AddsNone) ∧ w = ops ++ [.addToken new]
  | .refresh payload cookie, a, w, db => ∃ raw t, presented payload cookie = some raw ∧ a = .tokens t ∧
      Exchanges cfg raw t w db
  | _, _, w, _ => ∀ o ∈ w, o.AddsNone

theorem AuthOp.AddsNone.own {o : AuthOp} (h : o.AddsNone) (db : AuthDb) : o.Own db := by
  cases o <;> trivial

theorem AuthDb.mem_addToken {db : AuthDb} {t : RefreshToken} (hu : db.hasUser t.userId = true)
    (ha : db.refreshTokens.admits t = true) : t ∈ ((AuthOp.addToken t).apply db).refreshTokens.rows :=
  AuthOp.mem_tokens_apply.2 (.inr ⟨rfl, hu, ha⟩)

section
variable {cfg : Config} {α : Type} {Q : α → List AuthOp → List AuthOp → AuthDb → Prop}
  {d w : List AuthOp} {db : AuthDb}

/-- A handler that relies on `R`. -/
abbrev Auth.Safe (R : AuthDb → AuthDb → Prop) (p : Auth α)
    (Q : α → List AuthOp → List AuthOp → AuthDb → Prop) (d w : List AuthOp) (db : AuthDb) : Prop :=
  Prog.Safe (B := authTables.backend) (fun _ => R) AuthOp.Own Q p d w db

/-- What every rely of the authentication service says: it is a preorder along which the database
grows. -/
structure AuthRely (R : AuthDb → AuthDb → Prop) : Prop where
  refl : ∀ db, R db db
  trans : ∀ a b c, R a b → R b c → R a c
  grows : ∀ {a b}, R a b → a.Grows b

theorem AuthRely.ofGrows : AuthRely AuthDb.Grows :=
  ⟨AuthDb.Grows.refl, fun _ _ _ => AuthDb.Grows.trans, id⟩

variable {R : AuthDb → AuthDb → Prop}

theorem AuthService.familyOrNew_safe (hR : AuthRely R) {familyId : Option Uuid} {k : Uuid → Auth α}
    (h : ∀ family, (∀ f, familyId = some f → family = f) → Auth.Safe R (k family) Q d w db) :
    Auth.Safe R (AuthService.familyOrNew familyId >>= k) Q d w db := by
  cases familyId with
  | some f => exact h f fun _ he => Option.some.inj he
  | none => exact Prog.Safe.ask hR.trans fun family => h family fun _ he => by cases he

theorem AuthService.issueTokens_safe (hR : AuthRely R) {user : User} {familyId : Option Uuid}
    {k : IssuedTokens → Auth α}
    (hu : db.hasUser user.id = true) (h : ∀ t new db', R db db' → db'.Issues cfg t user.id new →
      (∀ f, familyId = some f → new.familyId = f) →
        Auth.Safe R (k t) Q [] (w ++ (d ++ [.addToken new])) db') :
    Auth.Safe R (AuthService.issueTokens cfg user familyId >>= k) Q d w db := by
  simp only [AuthService.issueTokens, RefreshTokenRepository.add,
    MembershipRepository.listOrgRolesForUser,
    random, uuid4, now, Prog.bind_assoc', Prog.pure_eq, Prog.ret_bind]
  refine Prog.Safe.ask hR.trans fun raw => AuthService.familyOrNew_safe hR fun family hf => ?_
  refine Prog.Safe.ask hR.trans fun time => Prog.Safe.ask hR.trans fun id => Prog.Safe.set hR.trans ?_
  refine Prog.Safe.flushSession fun db₁ h₁ _ => Prog.Safe.query fun db₂ h₂ ho => ?_
  refine Prog.Safe.ask hR.trans fun time' => Prog.Safe.ask hR.trans fun jti => ?_
  have h₁₂ := hR.trans _ _ _ h₁ h₂
  refine h _ _ db₂ h₁₂ ⟨rfl, rfl, rfl, rfl, ?_, (hR.grows h₁₂).hasUser hu⟩ hf
  exact ho (.addToken _) (by simp)

theorem AuthDb.Issues.find {t : IssuedTokens} {owner : Uuid} {new : RefreshToken}
    (h : db.Issues cfg t owner new) :
    (((AuthOp.addToken new).apply db).refreshTokens.one fun r =>
      r.tokenHash == cfg.hashToken t.refreshToken) = some new := by
  refine Table.one_eq_some (AuthDb.mem_addToken (h.userId ▸ h.hasUser) h.admits)
    (by simp [h.tokenHash]) ?_
  intro b hb
  rw [RefreshToken.clash_iff, h.tokenHash]
  exact .inr (by simpa using hb)

theorem AuthDb.Issues.mono {t : IssuedTokens} {owner : Uuid} {new : RefreshToken} {db' : AuthDb}
    (h : db.Issues cfg t owner new) (hg : db.Grows db') (ha : (AuthOp.addToken new).Own db') :
    db'.Issues cfg t owner new :=
  ⟨h.userId, h.tokenHash, h.revokedAt, h.rotatedTo, ha, hg.hasUser h.hasUser⟩

/-- In a state between `db` and `db'` the token with hash `h` was there, unrevoked. -/
def Saw (R : AuthDb → AuthDb → Prop) (h : String) (db db' : AuthDb) : Prop :=
  ∃ db₁ stored, R db db₁ ∧ R db₁ db' ∧ stored ∈ db₁.refreshTokens.rows ∧ stored.tokenHash = h ∧
    stored.revokedAt = none

/-- An exchange reads the token unrevoked and writes what `Exchanges` says. -/
theorem AuthService.rotate_safe (hR : AuthRely R) {raw : String} {k : IssuedTokens → Auth α}
    {db : AuthDb}
    (h : ∀ t w d db', Saw R (cfg.hashToken raw) db db' →
      (∀ db'', R db' db'' → (∀ o ∈ w, AuthOp.Own o db'') →
      Exchanges cfg raw t (w ++ d) db'') → Auth.Safe R (k t) Q d w db') :
    Auth.Safe R (AuthService.rotate cfg raw >>= k) Q [] [] db := by
  simp only [AuthService.rotate, RefreshTokenRepository.getByHash, Prog.bind_assoc']
  refine Prog.Safe.query fun db₁ h₁ _ => ?_
  split
  · trivial
  rename_i stored hst
  have hmem : stored ∈ db₁.refreshTokens.rows := Table.mem_of_one hst
  have hhash : stored.tokenHash = cfg.hashToken raw := by simpa using Table.pred_of_one hst
  split
  · -- reuse detection raises
    simp only [RefreshTokenRepository.revokeFamily, now, Prog.bind_assoc']
    refine Prog.Safe.ask hR.trans
      fun time => Prog.Safe.executeAll fun _ _ _ => ⟨fun o ho => ?_, trivial⟩
    obtain ⟨t, -, rfl⟩ := List.mem_map.1 ho
    trivial
  rename_i hrev
  simp only [now, Prog.bind_assoc']
  refine Prog.Safe.ask hR.trans fun time => ?_
  split
  · simp only [RefreshTokenRepository.revoke, now, Prog.bind_assoc']
    exact Prog.Safe.ask hR.trans
      fun _ => Prog.Safe.set hR.trans (Prog.Safe.flushSession fun _ _ _ => trivial)
  simp only [UserRepository.get, Prog.bind_assoc']
  refine Prog.Safe.query fun db₂ h₂ _ => ?_
  split
  · trivial
  rename_i user huser
  have hid : user.id = stored.userId := by simpa using Table.pred_of_one huser
  split
  · trivial
  simp only [Prog.bind_assoc']
  have hu : db₂.hasUser user.id = true := List.any_eq_true.2 ⟨user, Table.mem_of_one huser, by simp⟩
  refine AuthService.issueTokens_safe hR hu fun t new db₃ h₃ hi hfam => ?_
  refine Prog.Safe.ask hR.trans
    fun time' => Prog.Safe.set hR.trans (Prog.Safe.query fun db₄ h₄ ho => ?_)
  have hfind := (hi.mono (hR.grows h₄) (ho (.addToken new) (by simp))).find
  change Auth.Safe R ((Prog.set (AuthOp.setRotatedTo stored.id
    ((((AuthOp.addToken new).apply db₄).refreshTokens.one _).map (·.id)))) >>= _) Q _ _ db₄
  rw [hfind]
  have h₁₄ := hR.trans _ _ _ (hR.trans _ _ _ h₂ h₃) h₄
  refine Prog.Safe.set hR.trans
    (h _ _ _ db₄ ⟨db₁, stored, h₁, h₁₄, hmem, hhash, by simpa using hrev⟩ ?_)
  intro db₅ h₅ ho₅
  obtain ⟨row, hrow, he⟩ := (hR.grows (hR.trans _ _ _ h₁₄ h₅)).tokens stored hmem
  refine ⟨row, hrow, he.tokenHash.trans hhash, new, time', ?_, ?_, ?_⟩
  · rw [he.userId, ← hid]
    exact hi.mono (hR.grows (hR.trans _ _ _ h₄ h₅)) (ho₅ _ (by simp))
  · rw [he.familyId]; exact hfam _ rfl
  · simp [he.id]

theorem AuthService.authenticate_safe (hR : AuthRely R) {email password : String}
    {k : User → Auth α} {db : AuthDb}
    (h : ∀ user d db', db'.hasUser user.id = true → (∀ o ∈ d, o.AddsNone) →
      Auth.Safe R (k user) Q d [] db') :
    Auth.Safe R (AuthService.authenticate cfg email password >>= k) Q [] [] db := by
  simp only [AuthService.authenticate, UserRepository.getByEmail, AuthService.hashPassword, random,
    Prog.bind_assoc']
  refine Prog.Safe.query fun db₁ _ _ => ?_
  split
  · simp only [Prog.bind_assoc']
    exact Prog.Safe.ask hR.trans fun _ => trivial
  rename_i user huser
  have hu : db₁.hasUser user.id = true := List.any_eq_true.2 ⟨user, Table.mem_of_one huser, by simp⟩
  split
  · trivial
  split
  · trivial
  split
  · simp only [Prog.bind_assoc']
    refine Prog.Safe.ask hR.trans fun salt => Prog.Safe.set hR.trans ?_
    exact h { user with passwordHash := _ } _ db₁ hu (by simp [AuthOp.AddsNone])
  · exact h user [] db₁ hu (by simp)

theorem AuthThrottle.check_emits {P : AuthOp → Prop} (identity : String) :
    (AuthThrottle.check cfg identity).Emits P := by
  simp only [AuthThrottle.check, redisIncr, redisExpire, redisTtl, Prog.emits_ask]
  intro n
  split <;> split <;> simp

theorem AuthService.subject_emits {P : AuthOp → Prop} (claims : Claims) :
    (AuthService.subject claims).Emits P := by
  unfold AuthService.subject
  split <;> trivial

theorem AuthService.revokeEach_emits {P : AuthOp → Prop} (h : ∀ id time, P (.setRevokedAt id time))
    (ts : List RefreshToken) :
    (AuthService.revokeEach ts).Emits P := by
  induction ts with
  | nil => trivial
  | cons t ts ih => simpa [AuthService.revokeEach, now, h] using ih

theorem AuthService.issueTokens_emits {P : AuthOp → Prop} (h : ∀ t, P (.addToken t)) (user : User)
    (familyId : Option Uuid) :
    (AuthService.issueTokens cfg user familyId).Emits P := by
  have family : (AuthService.familyOrNew familyId).Emits P := by
    cases familyId with
    | none => exact fun x => by cases x <;> trivial
    | some f => trivial
  simp only [AuthService.issueTokens, RefreshTokenRepository.add,
    MembershipRepository.listOrgRolesForUser, random, uuid4, now,
    Prog.bind_assoc', Prog.emits_ask]
  refine fun raw => family.bind fun f => ?_
  simp [h]

theorem AuthThrottle.check_safe (hR : AuthRely R) {identity : String} {k : Unit → Auth α} {db : AuthDb}
    (h : Auth.Safe R (k ()) Q [] [] db) : Auth.Safe R (AuthThrottle.check cfg identity >>= k) Q
        [] [] db := by
  simp only [AuthThrottle.check, redisIncr, redisExpire, redisTtl, Prog.bind_assoc']
  refine Prog.Safe.ask hR.trans fun n => ?_
  split
  · simp only [Prog.bind_assoc']
    refine Prog.Safe.ask hR.trans fun _ => ?_
    split
    · simp only [Prog.bind_assoc']
      exact Prog.Safe.ask hR.trans fun _ => trivial
    · exact h
  · split
    · simp only [Prog.bind_assoc']
      exact Prog.Safe.ask hR.trans fun _ => trivial
    · exact h

/-- The kinds of writes that a request makes. -/
def AuthRequest.MayWrite : AuthRequest → AuthOp → Prop
  | .register _ _ _, .addUser _ => True
  | .login _ _ _, .setPasswordHash _ _ => True
  | .login _ _ _, .addToken _ => True
  | .refresh _ _, .addToken _ => True
  | .refresh _ _, .setRevokedAt _ _ => True
  | .refresh _ _, .setRotatedTo _ _ => True
  | .logout _ _, .setRevokedAt _ _ => True
  | .verifyEmail _, .setEmailVerified _ => True
  | .confirmPasswordReset _ _, .setPasswordHash _ _ => True
  | .confirmPasswordReset _ _, .setRevokedAt _ _ => True
  | _, _ => False

theorem AuthRequest.emits (r : AuthRequest) : (r.prog cfg).Emits r.MayWrite := by
  cases r with
  | register email password fullName =>
    simp only [prog, AuthService.register, AuthService.hashPassword, AuthService.sendVerificationEmail,
      AuthService.sendEmail, UserRepository.getByEmail, UserRepository.add, random, uuid4, now,
      Prog.bind_assoc', Prog.emits_query]
    intro db
    split
    · trivial
    · simp [Prog.bind_assoc', MayWrite]
  | login clientIp email password =>
    refine Prog.Emits.bind (AuthThrottle.check_emits _) fun _ => ?_
    simp only [AuthService.authenticate, AuthService.hashPassword, UserRepository.getByEmail,
      random, Prog.bind_assoc', Prog.emits_query]
    have issue : ∀ user : User,
        (AuthService.issueTokens cfg user none >>= fun t => Prog.ret (AuthAnswer.tokens t)).Emits
        (MayWrite (.login clientIp email password)) :=
      fun user => (AuthService.issueTokens_emits (fun _ => trivial) user none).bind fun _ => trivial
    intro db
    split
    · simp [Prog.bind_assoc']
    split
    · trivial
    split
    · trivial
    split
    · simp only [Prog.bind_assoc', Prog.emits_ask]
      exact fun salt => ⟨trivial, issue _⟩
    · exact issue _
  | refresh payload cookie =>
    simp only [prog]
    split
    · trivial
    simp only [AuthService.rotate, RefreshTokenRepository.getByHash,
      RefreshTokenRepository.revokeFamily, RefreshTokenRepository.revoke,
      UserRepository.get, now, Prog.bind_assoc', Prog.emits_query]
    intro db
    split
    · trivial
    split
    · simp only [Prog.bind_assoc', Prog.emits_ask]
      intro time lk db' b ops hops
      cases hops
      refine ⟨fun o ho => ?_, trivial⟩
      obtain ⟨t, -, rfl⟩ := List.mem_map.1 ho
      trivial
    simp only [Prog.bind_assoc', Prog.emits_ask]
    intro time
    split
    · simp [Prog.bind_assoc', MayWrite]
    simp only [Prog.bind_assoc', Prog.emits_query]
    intro db
    split
    · trivial
    split
    · trivial
    simp only [Prog.bind_assoc']
    refine (AuthService.issueTokens_emits (fun _ => trivial) _ _).bind fun t => ?_
    simp [MayWrite]
  | logout payload cookie =>
    simp only [prog]
    split
    · simp
    · simp only [AuthService.logout, RefreshTokenRepository.getByHash, Prog.bind_assoc',
        Prog.emits_query]
      intro db
      split
      · split
        · simp [RefreshTokenRepository.revoke, now, Prog.bind_assoc', MayWrite]
        · simp
      · simp
  | verifyEmail token =>
    simp only [prog, AuthService.verifyEmail, now, Prog.bind_assoc', Prog.emits_ask]
    intro time
    split
    · trivial
    · simp only [Prog.bind_assoc']
      refine Prog.Emits.bind (AuthService.subject_emits _) fun id => ?_
      simp only [UserRepository.get, Prog.emits_query]
      intro db
      split
      · trivial
      · simp [Prog.bind_assoc', MayWrite]
  | requestPasswordReset clientIp email =>
    refine Prog.Emits.bind (AuthThrottle.check_emits _) fun _ => ?_
    simp only [AuthService.requestPasswordReset, UserRepository.getByEmail, Prog.bind_assoc',
      Prog.emits_query]
    intro db
    split
    · simp
    · simp [AuthService.sendEmail, now, Prog.bind_assoc']
  | confirmPasswordReset token newPassword =>
    simp only [prog, AuthService.resetPassword, now, Prog.bind_assoc', Prog.emits_ask]
    intro time
    split
    · trivial
    · simp only [Prog.bind_assoc']
      refine Prog.Emits.bind (AuthService.subject_emits _) fun id => ?_
      simp only [UserRepository.get, Prog.emits_query]
      intro db
      split
      · trivial
      split
      · trivial
      · simp only [AuthService.hashPassword, random, AuthService.activeTokensFor, Prog.bind_assoc',
          Prog.emits_ask, Prog.emits_set, Prog.pure_eq, Prog.ret_bind, Prog.emits_query]
        refine fun salt =>
          ⟨trivial, fun db => Prog.Emits.bind (AuthService.revokeEach_emits (fun _ _ => trivial) _)
            fun _ => ?_⟩
        trivial

theorem AuthRequest.emits_addsNone (r : AuthRequest) (hl : ∀ i e p, r ≠ .login i e p)
    (hr : ∀ p c, r ≠ .refresh p c) : (r.prog cfg).Emits AuthOp.AddsNone := by
  refine r.emits.mono fun o ho => ?_
  cases r with
  | login i e p => exact absurd rfl (hl i e p)
  | refresh p c => exact absurd rfl (hr p c)
  | _ => cases o <;> trivial

/-- What each handler has seen and written when it returns, whatever the other transactions commit
meanwhile. -/
theorem AuthRequest.prog_safe (hR : AuthRely R) (r : AuthRequest) (db : AuthDb) :
    Auth.Safe R (r.prog cfg) (fun a d w db' => r.Writes cfg a (w ++ d) db' ∧
      ∀ h, r.exchangedHash cfg = some h → Saw R h db db') [] [] db := by
  have others (hl : ∀ i e p, r ≠ .login i e p) (hr : ∀ p c, r ≠ .refresh p c)
      (hn : r.exchangedHash cfg = none)
        (hw : ∀ a w db, (∀ o ∈ w, AuthOp.AddsNone o) → r.Writes cfg a w db) :
      Auth.Safe R (r.prog cfg) (fun a d w db' => r.Writes cfg a (w ++ d) db' ∧
        ∀ h, r.exchangedHash cfg = some h → Saw R h db db') [] [] db :=
    (Prog.Safe.of_emits (fun o db h => h.own db) (r.emits_addsNone hl hr) (by simp)).mono
      fun a d w db hq => ⟨hw a _ db hq, fun h he => by rw [hn] at he; cases he⟩
  cases r with
  | login clientIp email password =>
    refine AuthThrottle.check_safe hR (AuthService.authenticate_safe hR fun user d db₁ hu hd => ?_)
    refine AuthService.issueTokens_safe hR hu fun t new db₂ _ hi _ db₃ h₃ ho => ?_
    refine ⟨⟨t, user.id, new, d, rfl, hi.mono (hR.grows h₃) (ho _ (by simp)), hd, by simp⟩,
      fun h he => ?_⟩
    cases he
  | refresh payload cookie =>
    simp only [AuthRequest.prog]
    split
    · trivial
    · rename_i raw hraw
      refine AuthService.rotate_safe hR
        fun t w d db' hsaw h db'' hg ho => ⟨⟨raw, t, hraw, rfl, h db'' hg ho⟩, ?_⟩
      intro h he
      obtain ⟨db₁, stored, h₁, h₂, hm, hh, hrev⟩ := hsaw
      rw [exchangedHash, hraw] at he
      exact ⟨db₁, stored, h₁, hR.trans _ _ _ h₂ hg, hm, hh.trans (Option.some.inj he), hrev⟩
  | register email password fullName => exact others (by simp) (by simp) rfl fun _ _ _ h => h
  | logout payload cookie => exact others (by simp) (by simp) rfl fun _ _ _ h => h
  | verifyEmail token => exact others (by simp) (by simp) rfl fun _ _ _ h => h
  | requestPasswordReset clientIp email => exact others (by simp) (by simp) rfl fun _ _ _ h => h
  | confirmPasswordReset token newPassword => exact others (by simp) (by simp) rfl fun _ _ _ h => h

theorem AuthRequest.Writes.keeps {r : AuthRequest} {a : AuthAnswer} {w : List AuthOp} {db : AuthDb}
    (h : r.Writes cfg a w db) : ∀ o ∈ w, o.Keeps := by
  have others : (∀ o ∈ w, AuthOp.AddsNone o) → ∀ o ∈ w, o.Keeps := fun h o ho => (h o ho).plain.keeps
  cases r with
  | login i e p =>
    obtain ⟨t, userId, new, ops, -, -, hops, rfl⟩ := h
    intro o ho
    rcases List.mem_append.1 ho with ho | ho
    · exact (hops o ho).plain.keeps
    · rw [List.mem_singleton.1 ho]; trivial
  | refresh p c =>
    obtain ⟨raw, t, -, -, row, -, -, new, time, -, -, rfl⟩ := h
    intro o ho
    simp only [List.mem_cons, List.not_mem_nil, or_false] at ho
    rcases ho with rfl | rfl | rfl
    exacts [trivial, trivial, rfl]
  | register email password fullName => exact others h
  | logout payload cookie => exact others h
  | verifyEmail token => exact others h
  | requestPasswordReset clientIp email => exact others h
  | confirmPasswordReset token newPassword => exact others h

theorem authBounded (cfg : Config) :
    Bounded (AuthRequest.prog cfg) (fun _ => True) AuthDb.Grows AuthOp.Own
    (AuthRequest.Writes cfg) where
  refl := AuthDb.Grows.refl
  trans _ _ _ := AuthDb.Grows.trans
  inv _ _ _ _ := trivial
  check o w db _ h := o.own_of_check w db h
  stable o o' db hk h := o.own_stable o' db hk h
  safe r db _ := (r.prog_safe .ofGrows db).mono fun _ _ _ _ h => h.1
  commit _ _ _ db _ h := AuthDb.Grows.applyAll h.keeps db

end

/-- The interleaved authentication requests. -/
abbrev AuthSystem : Type 1 := System authTables.backend AuthRequest AuthAnswer

abbrev AuthEvent : Type := Event authTables.backend AuthRequest

/-- One step of some transaction. -/
abbrev authNext (cfg : Config) : AuthSystem → AuthEvent → AuthSystem :=
  System.next (AuthRequest.prog cfg)

end TrafficPlatform
