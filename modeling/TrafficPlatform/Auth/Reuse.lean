import TrafficPlatform.Auth.Writes
import TrafficPlatform.Kit.Run

/-!
# Reuse detection and the transaction of the request

When a revoked refresh token is presented, `rotate` revokes its family and then raises, and
`get_session` rolls the transaction back: the revocation is lost. So the replay ends the family
exactly when nothing of the family was left to revoke: every token of it is dead already
(`RefreshToken.Dead`). Dead tokens stay dead (`Dead.next`), and a token that is not dead can be
exchanged by the very next call (`refresh_succeeds`).
-/

namespace TrafficPlatform
open Kit

/-- One call of the API: the request and what its effects read from outside. -/
structure AuthCall where
  req : AuthRequest
  envs : Nat → Env Unit

/-- The committed database and the world between two calls. -/
abbrev AuthState : Type := State authTables.backend

variable (cfg : Config)

/-- The answer of a call: `get_session` commits when the handler returns and rolls back when it
raises. -/
def AuthState.answer (s : AuthState) (c : AuthCall) : Except Failure AuthAnswer :=
  (scope (c.req.prog cfg) c.envs s).1

/-- The state after a call. -/
def AuthState.call (s : AuthState) (c : AuthCall) : AuthState := (scope (c.req.prog cfg) c.envs s).2

def AuthState.Succeeds (s : AuthState) (c : AuthCall) : Prop := ∃ a, s.answer cfg c = .ok a

/-- The time that the first clock reading of a call gives. -/
def AuthState.time (s : AuthState) (c : AuthCall) : Time := max s.world.clock (c.envs 0).time

/-- The token cannot be exchanged at `time` or later: it is revoked, expired, or its user is not
active. -/
def RefreshToken.Dead (t : RefreshToken) (db : AuthDb) (time : Time) : Prop :=
  t.revokedAt.isSome ∨ t.expiresAt ≤ time ∨ ∃ u ∈ db.users.rows, u.id = t.userId ∧ u.isActive = false

/-- The call presents the stored token `r`, which is revoked. -/
def Replays (s : AuthState) (c : AuthCall) (r : RefreshToken) : Prop :=
  r ∈ s.db.refreshTokens.rows ∧ c.req.exchangedHash cfg = some r.tokenHash ∧ r.revokedAt.isSome

/-- After the call, no call of any continuation succeeds in exchanging a token that is in `r`'s
family now. -/
def FamilyKilled (s : AuthState) (c : AuthCall) (r : RefreshToken) : Prop :=
  ∀ (cs : List AuthCall) (c' : AuthCall), ∀ t ∈ s.db.refreshTokens.rows, t.familyId = r.familyId →
    c'.req.exchangedHash cfg = some t.tokenHash →
      ¬ (run (AuthState.call cfg) (s.call cfg c) cs).Succeeds cfg c'

/-- Every token of `r`'s family that a call can present is dead by the time of the call. -/
def FamilyDead (s : AuthState) (c : AuthCall) (r : RefreshToken) : Prop :=
  ∀ (req : AuthRequest), ∀ t ∈ s.db.refreshTokens.rows, t.familyId = r.familyId →
    req.exchangedHash cfg = some t.tokenHash → t.Dead s.db (s.time c)

/-- Hashes do not run out: some string has a hash that is not in use. -/
def Config.Unused (cfg : Config) : Prop := ∀ used : List String, ∃ raw, cfg.hashToken raw ∉ used

variable {cfg} {s : AuthState} {c : AuthCall} {r t : RefreshToken}

theorem exchangedHash_some {req : AuthRequest} {h : String} (hr : req.exchangedHash cfg = some h) :
    ∃ payload cookie raw, req = .refresh payload cookie ∧ presented payload cookie = some raw ∧
      cfg.hashToken raw = h := by
  cases req with
  | refresh payload cookie =>
    obtain ⟨raw, hraw, hh⟩ := Option.map_eq_some_iff.1 hr
    exact ⟨payload, cookie, raw, rfl, hraw, hh⟩
  | _ => cases hr

theorem presented_ne {payload cookie : Option String} {raw : String}
    (h : presented payload cookie = some raw) :
    raw ≠ "" := by
  rcases Option.or_eq_some_iff.1 h with h | ⟨-, h⟩ <;> simpa using (Option.filter_eq_some_iff.1 h).2

theorem exists_id_bound (rows : List RefreshToken) : ∃ n, ∀ t ∈ rows, t.id < n := by
  induction rows with
  | nil => exact ⟨0, by simp⟩
  | cons t ts ih =>
    obtain ⟨n, hn⟩ := ih
    refine ⟨max n (t.id + 1), List.forall_mem_cons.2 ⟨?_, fun t' ht' => ?_⟩⟩
    · exact Nat.lt_of_lt_of_le (Nat.lt_succ_self _) (Nat.le_max_right _ _)
    · exact Nat.lt_of_lt_of_le (hn t' ht') (Nat.le_max_left _ _)

/-! ### What a call keeps -/

theorem call_grows (s : AuthState) (c : AuthCall) : s.db.Grows (s.call cfg c).db := by
  cases h : (scope (c.req.prog cfg) c.envs s).1 with
  | ok a =>
    obtain ⟨w, hw, hq⟩ := (authBounded cfg).relies.of_scope trivial h
    rw [AuthState.call, hw]
    exact (authBounded cfg).commit _ _ _ _ trivial hq
  | error e =>
    rw [AuthState.call, scope_error h]
    exact .refl _

/-- Every effect of the handlers changes the world within `W`. -/
structure AuthEffects (W : World (List EmailMessage) → World (List EmailMessage) → Prop) : Prop where
  now : (now : Auth Time).Within W
  uuid4 : (uuid4 : Auth Uuid).Within W
  random : (random : Auth String).Within W
  redisIncr : ∀ key, (redisIncr key : Auth Int).Within W
  redisExpire : ∀ key n, (redisExpire key n : Auth Unit).Within W
  redisTtl : ∀ key, (redisTtl key : Auth Int).Within W
  sendEmail : ∀ m, (AuthService.sendEmail m).Within W

theorem AuthEffects.revokeEach {W : World (List EmailMessage) → World (List EmailMessage) → Prop}
    (h : AuthEffects W) (ts : List RefreshToken) : (AuthService.revokeEach ts).Within W := by
  induction ts with
  | nil => trivial
  | cons t ts ih => exact h.now.bind fun time => Prog.Within.bind (by simp) fun _ => ih

theorem AuthEffects.prog {W : World (List EmailMessage) → World (List EmailMessage) → Prop}
    (h : AuthEffects W) (req : AuthRequest) : (req.prog cfg).Within W := by
  cases req <;>
    simp only [AuthRequest.prog, AuthService.register, AuthService.authenticate,
    AuthService.issueTokens, AuthService.rotate, AuthService.logout, AuthService.verifyEmail,
    AuthService.requestPasswordReset, AuthService.resetPassword, AuthService.hashPassword,
    AuthService.sendVerificationEmail, AuthService.subject, AuthService.activeTokensFor,
    AuthService.familyOrNew, AuthThrottle.check, UserRepository.get, UserRepository.getByEmail,
    UserRepository.add, RefreshTokenRepository.getByHash, RefreshTokenRepository.add,
    RefreshTokenRepository.revokeFamily, RefreshTokenRepository.revoke,
    MembershipRepository.listOrgRolesForUser]
  all_goals
    repeat' first
      | exact h.revokeEach _
      | exact h.sendEmail _
      | exact h.now
      | exact h.uuid4
      | exact h.random
      | exact h.redisIncr _
      | exact h.redisExpire _ _
      | exact h.redisTtl _
      | refine Prog.Within.bind ?_ fun _ => ?_
      | split
      | simp

theorem AuthRequest.within (req : AuthRequest) : (req.prog cfg).Within World.ClockLe :=
  AuthEffects.prog
    ⟨within_now, within_uuid4, within_random, within_redisIncr, within_redisExpire, within_redisTtl,
    fun _ => Prog.within_ask fun _ _ => Nat.le_refl _⟩ req

theorem call_clock (s : AuthState) (c : AuthCall) : s.world.clock ≤ (s.call cfg c).world.clock :=
  scope_world World.ClockLe.refl World.ClockLe.trans c.req.within c.envs s

theorem RefreshToken.Dead.mono {t' : RefreshToken} {db db' : AuthDb} {time time' : Time}
    (h : t.Dead db time) (he : t.Evolves t') (hg : db.Grows db') (ht : time ≤ time') :
        t'.Dead db' time' := by
  rcases h with h | h | ⟨u, hu, hid, ha⟩
  · exact .inl (he.revoked h)
  · exact .inr (.inl (by rw [he.expiresAt]; exact Nat.le_trans h ht))
  · obtain ⟨u', hu', hid', ha'⟩ := hg.users u hu
    exact .inr (.inr ⟨u', hu', by rw [he.userId, hid', hid], ha'.trans ha⟩)

theorem run_grows (s : AuthState) (cs : List AuthCall) :
    s.db.Grows (run (AuthState.call cfg) s cs).db := by
  induction cs generalizing s with
  | nil => exact .refl _
  | cons c cs ih => exact (call_grows s c).trans (ih (s.call cfg c))

theorem run_clock (s : AuthState) (cs : List AuthCall) :
    s.world.clock ≤ (run (AuthState.call cfg) s cs).world.clock := by
  induction cs generalizing s with
  | nil => exact Nat.le_refl _
  | cons c cs ih => exact Nat.le_trans (call_clock s c) (ih (s.call cfg c))

/-! ### Which tokens a call can exchange -/

theorem refresh_prog {req : AuthRequest} (hc : req.exchangedHash cfg = some t.tokenHash) :
    ∃ raw, cfg.hashToken raw = t.tokenHash ∧
      req.prog cfg = AuthService.rotate cfg raw >>= fun t => Prog.ret (AuthAnswer.tokens t) := by
  obtain ⟨payload, cookie, raw, rfl, hraw, hhash⟩ := exchangedHash_some hc
  exact ⟨raw, hhash, by simp only [AuthRequest.prog, hraw]; rfl⟩

theorem one_tokenHash {db : AuthDb} (ht : t ∈ db.refreshTokens.rows) :
    (db.refreshTokens.one fun t' => t'.tokenHash == t.tokenHash) = some t :=
  Table.one_eq_some ht (by simp) fun b hb => RefreshToken.clash_iff.2 (.inr (by simpa using hb))

theorem one_userId {db : AuthDb} {u : User} (hu : u ∈ db.users.rows) :
    (db.users.one fun u' => u'.id == u.id) = some u :=
  Table.one_eq_some hu (by simp) fun b hb => User.clash_iff.2 (.inl (by simpa using hb))

theorem rotate_revoked {raw : String} {α : Type} {k : IssuedTokens → Auth α}
    {σ : Session authTables.backend} (ht : t ∈ σ.db.refreshTokens.rows)
    (hh : cfg.hashToken raw = t.tokenHash) (hrev : t.revokedAt.isSome) :
    ∃ e σ', (AuthService.rotate cfg raw >>= k).eval σ = (.error e, σ') ∧
      σ'.world = (World.readClock (σ.envs 0) σ.world).2 := by
  simp only [AuthService.rotate, RefreshTokenRepository.getByHash, Prog.bind_assoc',
    Prog.eval_query, hh,
    one_tokenHash ht, hrev, if_true, RefreshTokenRepository.revokeFamily, now, Prog.eval_ask,
    Prog.eval_executeAll, Prog.raise_bind, Prog.eval_raise]
  exact ⟨_, _, rfl, rfl⟩

theorem rotate_dead {raw : String} {α : Type} {k : IssuedTokens → Auth α}
    {σ : Session authTables.backend} (ht : t ∈ σ.db.refreshTokens.rows)
    (hh : cfg.hashToken raw = t.tokenHash) (hd : t.Dead σ.db (max σ.world.clock (σ.envs 0).time)) :
    ∃ e σ', (AuthService.rotate cfg raw >>= k).eval σ = (.error e, σ') := by
  by_cases hrev : t.revokedAt.isSome
  · obtain ⟨e, σ', he, -⟩ := rotate_revoked (k := k) ht hh hrev
    exact ⟨e, σ', he⟩
  simp only [AuthService.rotate, RefreshTokenRepository.getByHash, Prog.bind_assoc',
    Prog.eval_query, hh,
    one_tokenHash ht, hrev, Bool.false_eq_true, if_false, now, Prog.eval_ask, World.readClock]
  by_cases hexp : t.expiresAt ≤ max σ.world.clock (σ.envs 0).time
  · simp only [hexp, if_true, Prog.bind_assoc', Prog.raise_bind]
    exact Prog.eval_bind_raise (B := authTables.backend) _ _ _
  · obtain ⟨u, hu, hid, ha⟩ := (hd.resolve_left hrev).resolve_left hexp
    simp only [hexp, if_false, UserRepository.get, Prog.bind_assoc', Prog.eval_query, ← hid,
      one_userId hu, ha]
    exact ⟨_, _, rfl⟩

theorem refresh_alive (hok : s.Succeeds cfg c) (hc : c.req.exchangedHash cfg = some t.tokenHash)
    (ht : t ∈ s.db.refreshTokens.rows) : ¬ t.Dead s.db (s.time c) := by
  intro hd
  obtain ⟨raw, hh, hprog⟩ := refresh_prog hc
  obtain ⟨a, hok⟩ := hok
  obtain ⟨e, σ', he⟩ := rotate_dead (σ := ⟨s.db, [], s.world, c.envs⟩)
    (k := fun t => Prog.ret (AuthAnswer.tokens t) >>= fun a => Prog.flush (Prog.ret a)) ht hh hd
  rw [AuthState.answer, hprog, scope_of_error (by rwa [Prog.commit, Prog.bind_assoc'])] at hok
  cases hok

theorem replay_call (h : Replays cfg s c r) :
    (s.call cfg c).db = s.db ∧ (s.call cfg c).world.clock = s.time c := by
  obtain ⟨hr, hc, hrev⟩ := h
  obtain ⟨raw, hh, hprog⟩ := refresh_prog hc
  obtain ⟨e, σ', he, hw⟩ := rotate_revoked (σ := ⟨s.db, [], s.world, c.envs⟩)
    (k := fun t => Prog.ret (AuthAnswer.tokens t) >>= fun a => Prog.flush (Prog.ret a)) hr hh hrev
  rw [AuthState.call, hprog, scope_of_error (by rwa [Prog.commit, Prog.bind_assoc'])]
  exact ⟨rfl, by rw [hw]; rfl⟩

theorem flush_addToken {db : AuthDb} {new : RefreshToken} (hu : db.hasUser new.userId = true)
    (ha : db.refreshTokens.admits new = true) : flushAll authTables.backend [.addToken new] db =
      .ok ((AuthOp.addToken new).apply db) :=
  flushAll_cons (by simp [AuthOp.check, hu, ha])

theorem mem_addToken_of_mem {db : AuthDb} {new : RefreshToken} (ht : t ∈ db.refreshTokens.rows) :
    t ∈ ((AuthOp.addToken new).apply db).refreshTokens.rows :=
  AuthOp.mem_tokens_apply.2 (.inl ⟨t, ht, rfl⟩)

theorem flush_rotated {db : AuthDb} {time : Time} {successor : Option Uuid}
    (ht : t ∈ db.refreshTokens.rows) :
    flushAll authTables.backend [.setRevokedAt t.id time, .setRotatedTo t.id successor] db =
      .ok ((AuthOp.setRotatedTo t.id successor).apply ((AuthOp.setRevokedAt t.id time).apply db)) := by
  have htoken : ∀ {db' : AuthDb}, db.Grows db' → db'.hasToken t.id = true := fun hg => by
    obtain ⟨t', ht', he⟩ := hg.tokens t ht
    exact List.any_eq_true.2 ⟨t', ht', by simp [he.id]⟩
  have hk : (AuthOp.setRevokedAt t.id time).Keeps := trivial
  refine (flushAll_cons ?_).trans (flushAll_cons ?_)
  · simp [AuthOp.check, htoken (.refl db)]
  · simp [AuthOp.check, htoken (.apply hk db)]

/-- A call that refreshes a token which is not dead succeeds, when the new secret and the new id are
not in use. -/
theorem refresh_succeeds {raw : String} {env : Env Unit} (hraw : raw ≠ "")
    (hh : cfg.hashToken raw = t.tokenHash)
    (ht : t ∈ s.db.refreshTokens.rows) (halive : ¬ t.Dead s.db (max s.world.clock env.time))
    (hfresh : ∀ t' ∈ s.db.refreshTokens.rows, t'.tokenHash ≠ cfg.hashToken env.text ∧
      t'.id < env.number) :
    s.Succeeds cfg ⟨.refresh (some raw) none, fun _ => env⟩ := by
  have hpres : presented (some raw) none = some raw := by simp [presented, hraw]
  obtain ⟨hrev, hexp, hact⟩ : ¬ t.revokedAt.isSome = true ∧ ¬ t.expiresAt ≤ max s.world.clock env.time ∧
      ¬ ∃ u ∈ s.db.users.rows, u.id = t.userId ∧ u.isActive = false := by
    simpa [RefreshToken.Dead, not_or] using halive
  obtain ⟨u, hu, hid⟩ := s.db.owned t ht
  have hua : u.isActive = true := by
    by_contra hne
    exact hact ⟨u, hu, hid, by simpa using hne⟩
  have hprog : (AuthRequest.refresh (some raw) none).prog cfg =
      AuthService.rotate cfg raw >>= fun t => Prog.ret (AuthAnswer.tokens t) := by
    simp only [AuthRequest.prog, hpres]; rfl
  simp only [AuthState.Succeeds, AuthState.answer, hprog]
  simp only [scope, Prog.commit, AuthService.rotate, RefreshTokenRepository.getByHash, Prog.bind_assoc',
    Prog.eval_query, hh, one_tokenHash ht, hrev, Bool.false_eq_true, if_false, now, Prog.eval_ask,
    World.readClock, hexp, UserRepository.get, ← hid, one_userId hu, hua, Bool.not_true]
  simp only [AuthService.issueTokens, random, AuthService.familyOrNew, uuid4, now,
    RefreshTokenRepository.add,
    Prog.bind_assoc', Prog.pure_eq, Prog.ret_bind, Prog.eval_ask, Prog.eval_set, Prog.eval_flushSession,
    World.random, World.readClock, World.uuid4, List.nil_append]
  rw [flush_addToken]
  rotate_left
  · exact List.any_eq_true.2 ⟨u, hu, by simp⟩
  · refine Table.admits_iff.2 fun t' ht' hclash => ?_
    have := hfresh t' ht'
    rcases RefreshToken.clash_iff.1 hclash with h | h
    · exact absurd h (Nat.ne_of_lt (Nat.lt_of_lt_of_le this.2 (Nat.le_max_right _ _)))
    · exact this.1 h
  simp only [MembershipRepository.listOrgRolesForUser, Prog.eval_query, Prog.eval_ask, World.readClock,
    World.uuid4, Prog.eval_set, List.nil_append, List.cons_append, Prog.eval]
  rw [flush_rotated (mem_addToken_of_mem ht)]
  exact ⟨_, rfl⟩

/-! ### The exact condition -/

theorem familyKilled_of_dead (h : Replays cfg s c r) (hd : FamilyDead cfg s c r) :
    FamilyKilled cfg s c r := by
  intro cs c' t ht hf hc' hok
  obtain ⟨hdb, hclock⟩ := replay_call h
  set s₂ := run (AuthState.call cfg) (s.call cfg c) cs with hs₂
  have hg : s.db.Grows s₂.db := hdb ▸ run_grows (s.call cfg c) cs
  obtain ⟨t₂, ht₂, he⟩ := hg.tokens t ht
  have htime : s.time c ≤ s₂.time c' := by
    rw [← hclock]
    exact Nat.le_trans (run_clock (s.call cfg c) cs) (Nat.le_max_left _ _)
  exact refresh_alive hok (by rw [hc', he.tokenHash]) ht₂ ((hd c'.req t ht hf hc').mono he hg htime)

theorem familyDead_of_killed (hfresh : cfg.Unused) (h : Replays cfg s c r)
    (hk : FamilyKilled cfg s c r) :
    FamilyDead cfg s c r := by
  intro req t ht hf hc'
  by_contra halive
  obtain ⟨hdb, hclock⟩ := replay_call h
  obtain ⟨payload, cookie, raw, rfl, hraw, hh⟩ := exchangedHash_some hc'
  obtain ⟨text, htext⟩ := hfresh (s.db.refreshTokens.rows.map (·.tokenHash))
  obtain ⟨number, hnumber⟩ := exists_id_bound s.db.refreshTokens.rows
  have hpres : presented (some raw) none = some raw := by simp [presented, presented_ne hraw]
  refine hk [] ⟨.refresh (some raw) none, fun _ => ⟨0, text, number, ()⟩⟩ t ht hf
    (by simp [AuthRequest.exchangedHash, hpres, hh]) ?_
  refine refresh_succeeds (presented_ne hraw) hh (by rwa [run, hdb]) ?_ fun t' ht' => ?_
  · rwa [run, hdb, hclock, Nat.max_eq_left (Nat.zero_le _)]
  · rw [run, hdb] at ht'
    exact ⟨fun he => htext (List.mem_map.2 ⟨t', ht', he⟩), hnumber t' ht'⟩

/-- In every sequence of calls: if at each replay of a revoked refresh token every token of its family
is dead by then, no later call of any continuation exchanges a token of these families. And only then,
as long as hashes do not run out. -/
theorem reuse_kills_family_iff (cfg : Config) (s : AuthState) (calls : List AuthCall) :
    (Meets (AuthState.call cfg) (fun s c => ∀ r, Replays cfg s c r → FamilyDead cfg s c r) s calls →
      Meets (AuthState.call cfg) (fun s c => ∀ r, Replays cfg s c r → FamilyKilled cfg s c r) s calls) ∧
    (cfg.Unused →
      Meets (AuthState.call cfg) (fun s c => ∀ r, Replays cfg s c r → FamilyKilled cfg s c r) s calls →
      Meets (AuthState.call cfg) (fun s c => ∀ r, Replays cfg s c r → FamilyDead cfg s c r)
        s calls) := by
  simp only [meets_iff]
  exact ⟨fun h es₁ c es₂ hes r hr => familyKilled_of_dead hr (h es₁ c es₂ hes r hr),
    fun hfresh h es₁ c es₂ hes r hr => familyDead_of_killed hfresh hr (h es₁ c es₂ hes r hr)⟩

/-- A login, a refresh that exchanges its token `first` for `second`, and a replay of `first`. -/
def replayCalls : List AuthCall :=
  [⟨.login "10.0.0.1" "ada@example.com" "pw", fun _ => sampleEnv 1 "first"⟩,
    ⟨.refresh (some "first") none, fun _ => sampleEnv 2 "second"⟩,
    ⟨.refresh (some "first") none, fun _ => sampleEnv 3 "third"⟩]

/-- After the replay of `first` its successor `second` can still be exchanged. -/
theorem reuse_leaves_family : ¬ ∀ (cfg : Config) (s : AuthState) (calls : List AuthCall),
    Meets (AuthState.call cfg) (fun s c => ∀ r, Replays cfg s c r → FamilyKilled cfg s c r)
        s calls := by
  intro h
  set s₂ := run (AuthState.call sampleConfig) ⟨sampleDb, sampleWorld⟩ (replayCalls.take 2) with hs₂
  have hkill := meets_iff.1 (h sampleConfig ⟨sampleDb, sampleWorld⟩ replayCalls) (replayCalls.take 2)
    ⟨.refresh (some "first") none, fun _ => sampleEnv 3 "third"⟩ [] rfl
  obtain ⟨r, hr, t, ht, hhr, hrev, hf, hht⟩ : ∃ r ∈ s₂.db.refreshTokens.rows,
      ∃ t ∈ s₂.db.refreshTokens.rows,
      r.tokenHash = "#first" ∧ r.revokedAt.isSome ∧ t.familyId = r.familyId ∧
          t.tokenHash = "#second" := by
    decide +kernel
  refine hkill r ⟨hr, by rw [hhr]; decide, hrev⟩ []
    ⟨.refresh (some "second") none, fun _ => sampleEnv 4 "fourth"⟩ t ht hf (by rw [hht]; decide) ?_
  have hok : (((s₂.call sampleConfig
      ⟨.refresh (some "first") none, fun _ => sampleEnv 3 "third"⟩).answer
      sampleConfig ⟨.refresh (some "second") none,
          fun _ => sampleEnv 4 "fourth"⟩).toOption).isSome := by
    decide +kernel
  unfold AuthState.Succeeds
  revert hok
  simp only [run]
  rw [← hs₂]
  cases AuthState.answer sampleConfig _ _ with
  | ok a => exact fun _ => ⟨a, rfl⟩
  | error e => exact fun h => by cases h

end TrafficPlatform
