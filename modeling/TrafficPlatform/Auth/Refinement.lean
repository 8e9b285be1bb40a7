import TrafficPlatform.Auth.Directory

/-!
# The authentication service is a directory

Every call of the authentication service is one that the directory allows, and leaves tables that
store the directory after it (`directory_simulated`): whatever the rows, the hashes and the order of
the calls, the callers see accounts with their passwords and refresh tokens that are given out and
taken back.
-/

namespace TrafficPlatform
open Kit

/-! ### Sessions that only wait -/

/-- Nothing was written, and the clock may have moved on. -/
structure Elapsed (s s' : Session authTables.backend) : Prop where
  db : s'.db = s.db
  dirty : s'.dirty = s.dirty
  clock : s.world.clock ≤ s'.world.clock

section
variable {α : Type} {p : Auth α} {s s' s'' : Session authTables.backend}

theorem Elapsed.trans (h : Elapsed s s') (h' : Elapsed s' s'') : Elapsed s s'' :=
  ⟨h'.db.trans h.db, h'.dirty.trans h.dirty, Nat.le_trans h.clock h'.clock⟩

theorem now_elapses (s : Session authTables.backend) :
    (now : Auth Time).Ends
        (fun time s' => Elapsed s s' ∧ s.world.clock ≤ time ∧ time = s'.world.clock)
            (fun _ _ => False) s :=
  ⟨⟨rfl, rfl, Nat.le_max_left _ _⟩, Nat.le_max_left _ _, rfl⟩

theorem uuid4_elapses (s : Session authTables.backend) :
    (uuid4 : Auth Uuid).Ends (fun _ s' => Elapsed s s') (fun _ _ => False) s :=
  ⟨rfl, rfl, Nat.le_refl _⟩

theorem random_elapses (s : Session authTables.backend) :
    (random : Auth String).Ends (fun _ s' => Elapsed s s') (fun _ _ => False) s :=
  ⟨rfl, rfl, Nat.le_refl _⟩

end

/-- The error is none that the service raises. -/
def Failure.Internal (e : Failure) : Prop := ∀ err, e ≠ .app err

theorem AuthOp.check_internal {o : AuthOp} {db : AuthDb} {e : Failure} (h : o.check db = .error e) :
    e.Internal := by
  cases o <;> simp only [AuthOp.check] at h <;> split at h <;> cases h <;>
    exact fun err he => by cases he

theorem flush_internal {ops : List AuthOp} {db : AuthDb} {e : Failure}
    (h : flushAll authTables.backend ops db = .error e) :
    e.Internal := by
  induction ops generalizing db with
  | nil => cases h
  | cons o ops ih =>
    simp only [flushAll] at h
    split at h
    · exact ih h
    · rename_i e' hc
      cases h
      exact AuthOp.check_internal hc

/-! ### The parts of the handlers -/

namespace Directory

variable {cfg : Config} {σ : Directory} {s : Session authTables.backend}

theorem Of.knows_iff {db : AuthDb} (h : Directory.Of cfg σ db) {email : String} :
    σ.Knows email ↔ ∃ u ∈ db.users.rows, u.email = email := by
  constructor
  · rintro ⟨id, a, ha, rfl⟩
    obtain ⟨u, hu, -, hof⟩ := h.user_of ha
    exact ⟨u, hu, hof.email⟩
  · rintro ⟨u, hu, rfl⟩
    obtain ⟨a, ha, hof⟩ := h.account u hu
    exact ⟨u.id, a, ha, hof.email.symm⟩

theorem Of.opens_iff {db : AuthDb} (h : Directory.Of cfg σ db) {email password : String} {u : User}
    (hu : u ∈ db.users.rows) (hemail : u.email = email) : (∃ a, σ.Opens email password u.id a) ↔
        cfg.verifyPassword password u.passwordHash = true := by
  obtain ⟨a, ha, hof⟩ := h.account u hu
  rw [hof.password]
  constructor
  · rintro ⟨a', ha', -, hp⟩
    cases ha.symm.trans ha'
    exact hp.symm
  · rintro rfl
    exact ⟨a, ha, hof.email.symm.trans hemail, rfl⟩

theorem Of.opens_id {db : AuthDb} (h : Directory.Of cfg σ db) {email password : String} {u : User}
    (hu : u ∈ db.users.rows) (hemail : u.email = email) {id : Uuid} {a : Account}
    (ho : σ.Opens email password id a) :
        u.id = id := by
  obtain ⟨ha, he, -⟩ := ho
  obtain ⟨v, hv, rfl, hof⟩ := h.user_of ha
  exact congrArg (·.id)
    (Table.eq_of_clash hu hv
      (User.clash_iff.2 (.inr (hemail.trans (he.symm.trans hof.email.symm)))))

/-- A directory that stores the same passwords after a rehash. -/
theorem Of.rehash {db : AuthDb} (h : Directory.Of cfg σ db) {u : User} (hu : u ∈ db.users.rows)
    {hash password : String} (hverify : cfg.verifyPassword password u.passwordHash = true)
    (hhash : ∀ p, cfg.verifyPassword p hash = true ↔ p = password) :
    Directory.Of cfg σ ((AuthOp.setPasswordHash u.id hash).apply db) := by
  have hsame : σ.change u.id (fun a => { a with password := password }) = σ := by
    obtain ⟨a, ha, hof⟩ := h.account u hu
    have haccounts : (σ.change u.id fun a => { a with password := password }).accounts =
        σ.accounts := by
      funext id
      rw [accounts_change]
      by_cases hid : id = u.id
      · rw [hid, ha, (hof.password password).1 hverify]
        simp
      · simp [hid]
    calc σ.change u.id _ =
      ⟨(σ.change u.id fun a => { a with password := password }).accounts, σ.grants⟩ := rfl
      _ = σ := by rw [haccounts]
  have hset : Directory.Of cfg (σ.change u.id _) _ := h.setPasswordHash hhash
  rwa [hsame] at hset

theorem check_throttles (identity : String) (s : Session authTables.backend) :
    (AuthThrottle.check cfg identity).Ends (fun _ s' => Elapsed s s')
        (fun e _ => e.IsRateLimited) s := by
  have refuse : ∀ n s₁, Elapsed s s₁ →
      (AuthThrottle.refuse cfg identity n).Ends (fun _ s' => Elapsed s s')
      (fun e _ => e.IsRateLimited) s₁ := by
    intro n s₁ h₁
    rcases Int.lt_or_le cfg.authRateLimitPerMinute n with hgt | hle
    · rw [AuthThrottle.refuse_of_gt hgt]
      exact Prog.ends_bind_ok rfl ⟨_, rfl⟩
    · rw [AuthThrottle.refuse_of_le hle]
      exact h₁
  rw [AuthThrottle.check_eq]
  refine Prog.ends_bind_ok rfl ?_
  have h₁ : Elapsed s (s.step (World.incr (AuthThrottle.key identity) (s.envs 0) s.world).2) :=
    ⟨rfl, rfl, Nat.le_max_left _ _⟩
  by_cases hone : (World.incr (AuthThrottle.key identity) (s.envs 0) s.world).1 = 1
  · rw [hone, AuthThrottle.counted_one]
    exact Prog.ends_bind_ok rfl (refuse _ _ (h₁.trans ⟨rfl, rfl, Nat.le_max_left _ _⟩))
  · rw [AuthThrottle.counted_of_ne hone]
    exact refuse _ _ h₁

/-- A login finds the account that the email and the password open, and may store a new hash of the
password. -/
theorem authenticate_opens (hverify : cfg.Verifies) (h : Directory.Of cfg σ s.db)
    (email password : String) :
    (AuthService.authenticate cfg email password).Ends
      (fun user s' => ∃ a, σ.Opens (cfg.lower (cfg.lower email)) password user.id a ∧
        a.isActive = true ∧
        ∃ ops, Elapsed { s with dirty := s.dirty ++ ops } s' ∧
          Directory.Of cfg σ (applyAll authTables.backend ops s.db))
      (fun e _ => (e = ErrorClass.authenticationError.error "Invalid email or password." ∧
          ∀ id a, ¬ σ.Opens (cfg.lower (cfg.lower email)) password id a) ∨
        (e = ErrorClass.authenticationError.error "Account is disabled." ∧
          ∃ id a, σ.Opens (cfg.lower (cfg.lower email)) password id a ∧ a.isActive = false)) s := by
  unfold AuthService.authenticate AuthService.hashPassword
  refine Prog.ends_query_bind ?_
  cases hone : s.db.users.one fun u => u.email == cfg.lower (cfg.lower email) with
  | none =>
    dsimp only
    rw [Prog.bind_assoc']
    refine (random_elapses s).mono (fun _ _ h => h) (fun _ _ h => h.elim) |>.bind fun _ _ _ => ?_
    refine .inl ⟨rfl, fun id a ho => ?_⟩
    obtain ⟨u, hu, -, hof⟩ := h.user_of ho.1
    exact Table.one_eq_none.1 hone u hu (by simpa using hof.email.trans ho.2.1)
  | some u =>
    have hu := Table.mem_of_one hone
    have hemail : u.email = cfg.lower (cfg.lower email) := by simpa using Table.pred_of_one hone
    have hopens : (∃ a, σ.Opens _ password u.id a) ↔ _ := h.opens_iff hu hemail
    dsimp only
    split
    · rename_i hwrong
      refine .inl ⟨rfl, fun id a ho => ?_⟩
      have hid := h.opens_id hu hemail ho
      rw [← hid] at ho
      simp [hopens.1 ⟨a, ho⟩] at hwrong
    rename_i hright
    have hcheck : cfg.verifyPassword password u.passwordHash = true := by simpa using hright
    obtain ⟨a, ho⟩ := hopens.2 hcheck
    have hactive := (h.account_of hu ho.1).isActive
    split
    · rename_i hdisabled
      exact .inr ⟨rfl, u.id, a, ho, hactive.symm.trans (by simpa using hdisabled)⟩
    rename_i henabled
    have hisActive : a.isActive = true := hactive.symm.trans (by simpa using henabled)
    split
    · rw [Prog.bind_assoc']
      refine (random_elapses s).mono (fun _ _ h => h) (fun _ _ h => h.elim) |>.bind
        fun salt s₁ h₁ => Prog.ends_set_bind ?_
      refine ⟨a, ho, hisActive, [.setPasswordHash u.id (cfg.hashPassword salt password)],
        ⟨h₁.db, ?_, h₁.clock⟩, ?_⟩
      · rw [h₁.dirty]
      · exact h.rehash hu hcheck (hverify salt password)
    · exact ⟨a, ho, hisActive, [], ⟨rfl, (List.append_nil _).symm, Nat.le_refl _⟩, h⟩

theorem familyOrNew_elapses (familyId : Option Uuid) (s : Session authTables.backend) :
    (AuthService.familyOrNew familyId).Ends (fun _ s' => Elapsed s s') (fun _ _ => False) s := by
  cases familyId with
  | none => exact uuid4_elapses s
  | some f => exact ⟨rfl, rfl, Nat.le_refl _⟩

/-- New tokens go to the user; pending writes are made with them. -/
theorem issueTokens_issues (user : User) (familyId : Option Uuid)
    (h : Directory.Of cfg σ (applyAll authTables.backend s.dirty s.db)) :
    (AuthService.issueTokens cfg user familyId).Ends
      (fun t s' => s'.dirty = [] ∧ σ.Issues cfg t user.id ∧ ∃ time, s.world.clock ≤ time ∧
        time ≤ s'.world.clock ∧
        Directory.Of cfg (σ.issue cfg t user.id time) s'.db ∧
        ∃ new, s'.db = (AuthOp.addToken new).apply (applyAll authTables.backend s.dirty s.db))
      (fun e _ => e.Internal) s := by
  have hmade := issueTokens_made cfg user familyId s
  suffices hgives : (AuthService.issueTokens cfg user familyId).Ends
      (fun t s' => s'.dirty = [] ∧ ∃ new time, new.userId = user.id ∧
        new.tokenHash = cfg.hashToken t.refreshToken ∧
        new.expiresAt = time + cfg.refreshTokenTtlSeconds * second ∧ new.revokedAt = none ∧
          s.world.clock ≤ time ∧
        time ≤ s'.world.clock ∧
          flushAll authTables.backend (s.dirty ++ [.addToken new]) s.db = .ok s'.db)
      (fun e _ => e.Internal) s by
    refine (hgives.and hmade).mono ?_ fun _ _ h => h.1
    rintro t s' ⟨⟨hdirty, new, time, huser, hhash, hexpires, hrevoked, hle, hle', hflush⟩, haccess⟩
    obtain ⟨hcheck, hdb⟩ := flushAll_concat hflush
    have hadmits : (applyAll authTables.backend s.dirty s.db).hasUser new.userId = true ∧
        (applyAll authTables.backend s.dirty s.db).refreshTokens.admits new = true := by
          simpa [AuthOp.check] using hcheck
    have hgive := h.addToken hadmits.1 hadmits.2 hrevoked
    rw [hhash, huser, hexpires] at hgive
    refine ⟨hdirty, ⟨haccess, ?_⟩, time, hle, hle', hdb ▸ hgive, new, hdb⟩
    cases hg : σ.grants (cfg.hashToken t.refreshToken) with
    | none => rfl
    | some g =>
      obtain ⟨t₀, ht₀, hhash₀, -⟩ := h.token_of hg
      exact absurd (RefreshToken.clash_iff.2 (.inr (hhash₀.trans hhash.symm)))
        (Table.admits_iff.1 hadmits.2 t₀ ht₀)
  unfold AuthService.issueTokens RefreshTokenRepository.add
  refine ((random_elapses s).mono (fun _ _ h => h) fun _ _ h => h.elim).bind fun raw s₁ h₁ => ?_
  refine ((familyOrNew_elapses familyId s₁).mono (fun _ _ h => h) fun _ _ h => h.elim).bind
    fun f s₂ h₂ => ?_
  refine ((now_elapses s₂).mono (fun _ _ h => h) fun _ _ h => h.elim).bind fun time s₃ hnow => ?_
  obtain ⟨h₃, hle, heq⟩ := hnow
  refine ((uuid4_elapses s₃).mono (fun _ _ h => h) fun _ _ h => h.elim).bind fun id s₄ h₄ => ?_
  have h' := ((h₁.trans h₂).trans h₃).trans h₄
  rw [Prog.bind_assoc']
  refine Prog.ends_set_bind
    (Prog.ends_flush_bind (fun db hflush => Prog.ends_query_bind ?_) fun e he => flush_internal he)
  refine ((now_elapses _).mono (fun _ _ h => h) fun _ _ h => h.elim).bind fun time' s₅ hnow => ?_
  obtain ⟨h₅, -, -⟩ := hnow
  refine ((uuid4_elapses s₅).mono (fun _ _ h => h) fun _ _ h => h.elim).bind fun jti s₆ h₆ => ?_
  have h'' := h₅.trans h₆
  refine ⟨h''.dirty,
    ⟨id, user.id, f, cfg.hashToken raw, time + cfg.refreshTokenTtlSeconds * second, none, none⟩,
      time, rfl, rfl,
    rfl, rfl, Nat.le_trans (h₁.trans h₂).clock hle, ?_, ?_⟩
  · rw [heq]
    exact Nat.le_trans h₄.clock h''.clock
  · rw [h''.db, ← h'.db, ← h'.dirty]
    exact hflush

/-! ### The handlers -/

/-- Between the clock of `s` and the clock of `s'`. -/
def Between (s s' : Session authTables.backend) (time : Time) : Prop := s.world.clock ≤ time ∧
    time ≤ s'.world.clock

/-- The handler, and the flush of what it leaves pending, does what the directory allows. -/
def Refines (cfg : Config) (σ : Directory) (request : AuthRequest)
    (s : Session authTables.backend) : Prop :=
  (request.prog cfg).Ends
    (fun a s' => (request.Fallible ∨ s'.dirty = []) ∧ ∃ σ', σ.Answers cfg σ' (Between s s') request a ∧
      Directory.Of cfg σ' (applyAll authTables.backend s'.dirty s'.db))
    (fun e s' => σ.Refuses cfg (Between s s') request e ∨ request.Fallible ∧ e.Internal) s

theorem register_refines (hverify : cfg.Verifies) (h : Directory.Of cfg σ s.db) (hd : s.dirty = [])
    (email password : String)
    (fullName : Option String) : Refines cfg σ (.register email password fullName) s := by
  unfold Refines
  simp only [AuthRequest.prog, AuthService.register, UserRepository.getByEmail,
    AuthService.hashPassword, Prog.bind_assoc']
  refine Prog.ends_query_bind ?_
  split
  · rename_i hsome
    obtain ⟨u, hone⟩ := Option.isSome_iff_exists.1 hsome
    refine .inl ⟨h.knows_iff.2 ⟨u, Table.mem_of_one hone, by simpa using Table.pred_of_one hone⟩, rfl⟩
  rename_i hnone
  have hfree : ¬ σ.Knows (cfg.lower (cfg.lower email)) := by
    intro hknows
    obtain ⟨u, hu, he⟩ := h.knows_iff.1 hknows
    exact hnone (Option.isSome_iff_ne_none.2
      fun hone => Table.one_eq_none.1 hone u hu (by simpa using he))
  simp only [Prog.bind_assoc']
  refine ((random_elapses s).mono (fun _ _ h => h) fun _ _ h => h.elim).bind fun salt s₁ h₁ => ?_
  refine ((uuid4_elapses s₁).mono (fun _ _ h => h) fun _ _ h => h.elim).bind fun id s₂ h₂ => ?_
  have h' := h₁.trans h₂
  unfold UserRepository.add
  simp only [Prog.bind_assoc']
  refine Prog.ends_set_bind
    (Prog.ends_flush_bind (fun db hflush => ?_) fun e he => .inr ⟨trivial, flush_internal he⟩)
  rw [h'.db, h'.dirty, hd] at hflush
  obtain ⟨hcheck, hdb⟩ := flushAll_concat hflush
  have hcheck' :
    (AuthOp.addUser
      ⟨id, cfg.lower email, fullName, cfg.hashPassword salt password, true, false, false⟩).check
        s.db =
    .ok () := hcheck
  have hadmits :
      s.db.users.admits
          ⟨id, cfg.lower email, fullName, cfg.hashPassword salt password, true, false, false⟩
              = true := by
    simpa [AuthOp.check] using hcheck'
  refine (Prog.Ends.bind (Q := fun _ s' => s'.db = db ∧ s'.dirty = []) ⟨rfl, rfl⟩ ?_)
  rintro _ s₃ ⟨hdb₃, hdirty₃⟩
  refine ⟨.inl trivial, σ.setAccount id ⟨cfg.lower email, password, true, false⟩,
    ⟨hfree, fun hknows => ?_, id, ?_, rfl, rfl⟩, ?_⟩
  · obtain ⟨u, hu, he⟩ := h.knows_iff.1 hknows
    exact Table.admits_iff.1 hadmits u hu (User.clash_iff.2 (.inr he))
  · cases ha : σ.accounts id with
    | none => rfl
    | some a =>
      obtain ⟨u, hu, hid⟩ := h.user id a ha
      exact absurd (User.clash_iff.2 (.inl hid)) (Table.admits_iff.1 hadmits u hu)
  · rw [hdirty₃, hdb₃, hdb]
    exact h.addUser
      (u := ⟨id, cfg.lower email, fullName, cfg.hashPassword salt password, true, false, false⟩)
        hadmits
      ⟨rfl, rfl, rfl, hverify salt password⟩

theorem login_refines (hverify : cfg.Verifies) (h : Directory.Of cfg σ s.db) (hd : s.dirty = [])
    (ip email password : String) :
    Refines cfg σ (.login ip email password) s := by
  unfold Refines
  simp only [AuthRequest.prog]
  refine ((check_throttles _ s).mono (fun _ _ h => h) fun _ _ h => .inl (.inl h)).bind fun _ s₁ h₁ => ?_
  have h' : Directory.Of cfg σ s₁.db := h₁.db ▸ h
  refine ((authenticate_opens hverify h' email password).mono (fun _ _ h => h)
    fun _ _ h => .inl (.inr h)).bind ?_
  rintro user s₂ ⟨a, ho, hactive, ops, h₂, hops⟩
  have hpending : Directory.Of cfg σ (applyAll authTables.backend s₂.dirty s₂.db) := by
    rw [h₂.db, h₂.dirty, h₁.dirty, hd]
    exact hops
  refine ((issueTokens_issues user none hpending).mono (fun _ _ h => h)
    fun _ _ h => .inr ⟨trivial, h⟩).bind ?_
  rintro t s₃ ⟨hdirty, hissues, time, hle, hle', hof, -⟩
  refine ⟨.inl trivial, _, ⟨user.id, a, t, time, ho, hactive, ⟨?_, hle'⟩, hissues, rfl, rfl⟩, ?_⟩
  · exact Nat.le_trans h₁.clock (Nat.le_trans h₂.clock hle)
  · rw [hdirty]
    exact hof

theorem not_admits {payload cookie : Option String} {time : Time} {raw : String}
    (hraw : presented payload cookie = some raw)
    (hg : ∀ g, σ.grants (cfg.hashToken raw) = some g → g.live = true → time < g.expiresAt →
      ∀ a, σ.accounts g.userId = some a → a.isActive = true → False) :
    ∀ raw g, ¬ σ.Admits cfg payload cookie time raw g := by
  rintro raw' g ⟨hraw', hgrant, hlive, hexpires, a, ha, hactive⟩
  cases hraw.symm.trans hraw'
  exact hg g hgrant hlive hexpires a ha hactive

theorem revokeFamily_ends (familyId : Uuid) (s : Session authTables.backend) :
    (RefreshTokenRepository.revokeFamily familyId).Ends (fun _ _ => True) (fun _ _ => False) s := by
  unfold RefreshTokenRepository.revokeFamily
  refine Prog.ends_bind_ok rfl ?_
  unfold Prog.Ends
  trivial

theorem rotate_refines (h : Directory.Of cfg σ s.db) (hd : s.dirty = [])
    {payload cookie : Option String} {raw : String} (hraw : presented payload cookie = some raw) :
      (AuthService.rotate cfg raw >>= fun t => Prog.ret (AuthAnswer.tokens t)).Ends
      (fun a s' => ∃ σ', σ.Answers cfg σ' (Between s s') (.refresh payload cookie) a ∧
        Directory.Of cfg σ' (applyAll authTables.backend s'.dirty s'.db))
      (fun e s' => s.world.clock ≤ s'.world.clock →
          σ.Refuses cfg (Between s s') (.refresh payload cookie) e ∨ e.Internal) s := by
  unfold AuthService.rotate RefreshTokenRepository.getByHash
  simp only [Prog.bind_assoc']
  refine Prog.ends_query_bind ?_
  cases hone : s.db.refreshTokens.one fun t => t.tokenHash == cfg.hashToken raw with
  | none =>
    refine fun hclock => .inl ⟨⟨_, rfl⟩, s.world.clock, ⟨Nat.le_refl _, hclock⟩,
      not_admits hraw fun g hg _ _ _ _ _ => ?_⟩
    obtain ⟨t, ht, hhash, -⟩ := h.token_of hg
    exact Table.one_eq_none.1 hone t ht (by simpa using hhash)
  | some stored =>
    have hstored := Table.mem_of_one hone
    have hhash : stored.tokenHash = cfg.hashToken raw := by simpa using Table.pred_of_one hone
    have hgrant : σ.grants (cfg.hashToken raw) =
        some ⟨stored.userId, stored.expiresAt, stored.revokedAt.isNone⟩ :=
      hhash ▸ h.grant stored hstored
    dsimp only
    split
    · -- the family is revoked, and the error takes that back
      rename_i hrevoked
      rw [Prog.bind_assoc']
      refine ((revokeFamily_ends stored.familyId s).mono (fun _ _ h => h) fun _ _ h => h.elim).bind
        fun _ s₁ _ => ?_
      refine fun hclock => .inl ⟨⟨_, rfl⟩, s.world.clock, ⟨Nat.le_refl _, hclock⟩,
        not_admits hraw fun g hg hlive _ _ _ _ => ?_⟩
      cases hgrant.symm.trans hg
      simp only [Option.isNone_iff_eq_none] at hlive
      simp [hlive] at hrevoked
    rename_i hlive
    have hnone : stored.revokedAt = none := by simpa using hlive
    simp only [Prog.bind_assoc']
    refine ((now_elapses s).mono (fun _ _ h => h) fun _ _ h => h.elim).bind fun time s₁ hnow => ?_
    obtain ⟨h₁, hle, heq⟩ := hnow
    split
    · rename_i hexpired
      unfold RefreshTokenRepository.revoke
      simp only [Prog.bind_assoc']
      refine ((now_elapses s₁).mono (fun _ _ h => h) fun _ _ h => h.elim).bind fun time₂ s₂ hnow₂ => ?_
      refine Prog.ends_set_bind
        (Prog.ends_flush_bind (fun db _ => ?_) fun e he _ => .inr (flush_internal he))
      refine fun _ => .inl ⟨⟨_, rfl⟩, time, ⟨hle, ?_⟩, not_admits hraw fun g hg _ hexpires _ _ _ => ?_⟩
      · rw [heq]
        exact hnow₂.1.clock
      · cases hgrant.symm.trans hg
        exact absurd hexpires (Nat.not_lt.2 hexpired)
    rename_i hgood
    simp only [UserRepository.get, Prog.bind_assoc']
    refine Prog.ends_query_bind ?_
    rw [h₁.db]
    obtain ⟨u, hu, hid⟩ := s.db.owned stored hstored
    rw [← hid, one_userId hu]
    obtain ⟨a, ha, hof⟩ := h.account u hu
    dsimp only
    split
    · rename_i hdisabled
      refine fun _ => .inl ⟨⟨_, rfl⟩, time, ⟨hle, heq ▸ Nat.le_refl _⟩,
        not_admits hraw fun g hg _ _ a' ha' hactive => ?_⟩
      cases hgrant.symm.trans hg
      rw [← hid] at ha'
      cases ha.symm.trans ha'
      rw [hof.isActive, hactive] at hdisabled
      cases hdisabled
    rename_i henabled
    simp only [Prog.bind_assoc']
    have hpending : Directory.Of cfg σ (applyAll authTables.backend s₁.dirty s₁.db) := by
      rw [h₁.db, h₁.dirty, hd]
      exact h
    refine ((issueTokens_issues u (some stored.familyId) hpending).mono (fun _ _ h => h)
      fun _ _ h _ => .inr h).bind ?_
    rintro t s₂ ⟨hdirty, hissues, time', hle', hle'', hof', new, hdb⟩
    refine ((now_elapses s₂).mono (fun _ _ h => h) fun _ _ h => h.elim).bind fun time₃ s₃ hnow₃ => ?_
    obtain ⟨h₃, -, -⟩ := hnow₃
    refine Prog.ends_set_bind (Prog.ends_query_bind (Prog.ends_set_bind ?_))
    have hactive : a.isActive = true := hof.isActive.symm.trans (by simpa using henabled)
    have hadmits :
        σ.Admits cfg payload cookie time raw
            ⟨stored.userId, stored.expiresAt, stored.revokedAt.isNone⟩ :=
      ⟨hraw, hgrant, by rw [hnone]; rfl, Nat.lt_of_not_le hgood, a, hid ▸ ha, hactive⟩
    have hlater : s₁.world.clock ≤ s₃.world.clock := Nat.le_trans (Nat.le_trans hle' hle'') h₃.clock
    refine ⟨_, ⟨raw, _, t, time, time', ⟨hle, heq ▸ hlater⟩,
      ⟨Nat.le_trans h₁.clock hle', Nat.le_trans hle'' h₃.clock⟩, hadmits,
      hid ▸ hissues, rfl, rfl⟩, ?_⟩
    dsimp only
    rw [h₃.db, h₃.dirty, hdirty, ← hhash, ← hid]
    have hrow : ∃ t' ∈ s₂.db.refreshTokens.rows, t'.id = stored.id ∧
        t'.tokenHash = stored.tokenHash := by
      rw [hdb, h₁.db, h₁.dirty, hd]
      exact ⟨stored, mem_addToken_of_mem hstored, rfl, rfl⟩
    exact (hof'.setRevokedAt hrow).setRotatedTo _

theorem refresh_refines (h : Directory.Of cfg σ s.db) (hd : s.dirty = [])
    (payload cookie : Option String) :
    Refines cfg σ (.refresh payload cookie) s := by
  have hclock :=
    (@AuthRequest.within cfg (.refresh payload cookie)).ends World.ClockLe.refl
      World.ClockLe.trans s
  unfold Refines
  cases hraw : presented payload cookie with
  | none =>
    simp only [AuthRequest.prog, hraw]
    refine .inl ⟨⟨_, rfl⟩, s.world.clock, ⟨Nat.le_refl _, Nat.le_refl _⟩, ?_⟩
    rintro raw g ⟨hsome, -⟩
    rw [hraw] at hsome
    cases hsome
  | some raw =>
    have hprog : (AuthRequest.refresh payload cookie).prog cfg =
        AuthService.rotate cfg raw >>= fun t => Prog.ret (AuthAnswer.tokens t) := by
      simp only [AuthRequest.prog, hraw]
      rfl
    rw [hprog] at hclock ⊢
    refine ((rotate_refines h hd hraw).and hclock).mono (fun a s' ha => ⟨.inl trivial, ha.1⟩)
      fun e s' he => ?_
    exact (he.1 he.2).imp id fun hinternal => ⟨trivial, hinternal⟩

theorem take_eq {hash : String} (h : ∀ g, σ.grants hash = some g → g.live = false) :
    σ.take hash = σ := by
  have hgrants : (σ.take hash).grants = σ.grants := by
    funext hash'
    rw [grants_take]
    cases hg : σ.grants hash' with
    | none => rfl
    | some g =>
      by_cases heq : hash' = hash
      · have hlive := h g (heq ▸ hg)
        obtain ⟨userId, expiresAt, live⟩ := g
        simp_all
      · simp [heq]
  calc σ.take hash = ⟨σ.accounts, (σ.take hash).grants⟩ := rfl
    _ = σ := by rw [hgrants]

theorem subject_error (claims : Claims) (s : Session authTables.backend) :
    (AuthService.subject claims).Ends (fun _ s' => s' = s)
    (fun e _ => e.Internal) s := by
  unfold AuthService.subject
  split
  · rfl
  · exact fun err he => by cases he

theorem logout_refines (h : Directory.Of cfg σ s.db) (hd : s.dirty = [])
    (payload cookie : Option String) :
    Refines cfg σ (.logout payload cookie) s := by
  unfold Refines
  cases hraw : presented payload cookie with
  | none =>
    simp only [AuthRequest.prog, hraw]
    refine ⟨.inl trivial, σ, ⟨rfl, ?_⟩, ?_⟩
    · rw [takePresented, hraw]
    · rw [hd]
      exact h
  | some raw =>
    have hanswer : ∀ s', σ.Answers cfg (σ.take (cfg.hashToken raw)) (Between s s')
        (.logout payload cookie) (.message "Logged out.") := by
      refine fun _ => ⟨rfl, ?_⟩
      rw [takePresented, hraw]
    simp only [AuthRequest.prog, hraw, AuthService.logout, RefreshTokenRepository.getByHash,
      Prog.bind_assoc']
    refine Prog.ends_query_bind ?_
    cases hone : s.db.refreshTokens.one fun t => t.tokenHash == cfg.hashToken raw with
    | none =>
      refine ⟨.inl trivial, _, hanswer _, ?_⟩
      rw [hd, take_eq fun g hg => ?_]
      · exact h
      · obtain ⟨t, ht, hhash, -⟩ := h.token_of hg
        exact absurd (by simpa using hhash) (Table.one_eq_none.1 hone t ht)
    | some stored =>
      have hstored := Table.mem_of_one hone
      have hhash : stored.tokenHash = cfg.hashToken raw := by simpa using Table.pred_of_one hone
      dsimp only
      split
      · unfold RefreshTokenRepository.revoke
        simp only [Prog.bind_assoc']
        refine ((now_elapses s).mono (fun _ _ h => h) fun _ _ h => h.elim).bind fun time s₁ hnow => ?_
        refine Prog.ends_set_bind
          (Prog.ends_flush_bind (fun db hflush => ?_) fun e he => .inr ⟨trivial, flush_internal he⟩)
        refine ⟨.inl trivial, _, hanswer _, ?_⟩
        have hdb : db = (AuthOp.setRevokedAt stored.id time).apply s.db := by
          have heq := flushAll_eq hflush
          rw [hnow.1.db, hnow.1.dirty, hd] at heq
          exact heq
        dsimp only
        rw [hdb, ← hhash]
        exact h.setRevokedAt ⟨stored, hstored, rfl, rfl⟩
      · rename_i hrevoked
        refine ⟨.inl trivial, _, hanswer _, ?_⟩
        rw [hd, take_eq fun g hg => ?_]
        · exact h
        · cases (hhash ▸ h.grant stored hstored).symm.trans hg
          exact Bool.eq_false_iff.2 (by simpa using hrevoked)

/-- The row of the user that the claims of a mail token name. -/
theorem subject_user (h : Directory.Of cfg σ s.db) (claims : Claims) {β : Type}
    {k : Option User → Auth β}
    {R : β → Session authTables.backend → Prop} {E : Failure → Session authTables.backend → Prop}
    (hinternal : ∀ e s', e.Internal → E e s')
    (hnone : ∀ id, claims.get "sub" = some (.uuid id) → σ.accounts id = none → (k none).Ends R E s)
    (hsome : ∀ u ∈ s.db.users.rows, claims.get "sub" = some (.uuid u.id) → ∀ a,
      σ.accounts u.id = some a → a.Of cfg u →
      (k (some u)).Ends R E s) :
    (AuthService.subject claims >>= fun id => UserRepository.get id >>= k).Ends R E s := by
  refine (((subject_ends claims s).and (subject_error claims s)).mono (fun _ _ h => h.1)
    fun _ _ h => hinternal _ _ h.2).bind ?_
  rintro id _ ⟨rfl, hsub⟩
  unfold UserRepository.get
  refine Prog.ends_query_bind ?_
  rename_i s'
  cases hone : s'.db.users.one fun u => u.id == id with
  | none =>
    refine hnone id hsub ?_
    by_contra hne
    obtain ⟨a, ha⟩ := Option.ne_none_iff_exists'.1 hne
    obtain ⟨u, hu, hid⟩ := h.user id a ha
    exact Table.one_eq_none.1 hone u hu (beq_iff_eq.2 hid)
  | some u =>
    have hu := Table.mem_of_one hone
    obtain rfl : u.id = id := by simpa using Table.pred_of_one hone
    obtain ⟨a, ha, hof⟩ := h.account u hu
    exact hsome u hu hsub a ha hof

theorem not_taken_of_error {token : Jwt} {purpose : String} {time : Time} {e : PyJWTError}
    (h : decodeActionToken time token purpose = .error e) : ¬ token.Taken purpose time := by
  intro htaken
  obtain ⟨claims, hok⟩ := decodeActionToken_taken htaken
  cases h.symm.trans hok

theorem verifyEmail_refines (h : Directory.Of cfg σ s.db) (hd : s.dirty = []) (token : Jwt) :
    Refines cfg σ (.verifyEmail token) s := by
  unfold Refines
  simp only [AuthRequest.prog, AuthService.verifyEmail, Prog.bind_assoc']
  refine ((now_elapses s).mono (fun _ _ h => h) fun _ _ h => h.elim).bind fun time s₁ hnow => ?_
  obtain ⟨h₁, hle, heq⟩ := hnow
  split
  · rename_i hdecode
    exact .inl (.inl ⟨rfl, time, ⟨hle, heq ▸ Nat.le_refl _⟩, not_taken_of_error hdecode⟩)
  rename_i claims hdecode
  obtain ⟨rfl, hlive, htype⟩ := decodeActionToken_ok hdecode
  simp only [Prog.bind_assoc']
  refine subject_user (h₁.db ▸ h) claims (fun e s' he => .inr ⟨trivial, he⟩) (fun id hsub hnone => ?_)
    fun u hu hsub a ha _ => ?_
  · exact .inl (.inr ⟨rfl, id, hsub, hnone⟩)
  · dsimp only
    simp only [Prog.bind_assoc']
    refine Prog.ends_set_bind ?_
    refine ⟨.inl trivial, _,
      ⟨u.id, time, ⟨hle, heq ▸ Nat.le_refl _⟩, ⟨htype, hlive, hsub⟩, by rw [ha]; rfl, rfl, rfl⟩, ?_⟩
    dsimp only
    rw [h₁.db, h₁.dirty, hd]
    exact h.setEmailVerified

theorem requestPasswordReset_refines (h : Directory.Of cfg σ s.db) (hd : s.dirty = [])
    (ip email : String) :
    Refines cfg σ (.requestPasswordReset ip email) s := by
  unfold Refines
  simp only [AuthRequest.prog]
  refine ((check_throttles _ s).mono (fun _ _ h => h) fun _ _ h => .inl h).bind fun _ s₁ h₁ => ?_
  refine Prog.Ends.bind (Q := fun _ s' => Elapsed s₁ s') ?_ fun _ s₂ h₂ => ?_
  · unfold AuthService.requestPasswordReset
    refine Prog.ends_query_bind ?_
    split
    · exact ⟨rfl, rfl, Nat.le_refl _⟩
    · refine ((now_elapses s₁).mono (fun _ _ h => h) fun _ _ h => h.elim).bind fun time s₃ hnow => ?_
      exact ⟨hnow.1.db, hnow.1.dirty, hnow.1.clock⟩
  · have h' := h₁.trans h₂
    refine ⟨.inr (h'.dirty.trans hd), σ, ⟨rfl, rfl⟩, ?_⟩
    rw [h'.dirty, h'.db, hd]
    exact h

theorem revokeEach_revokes (ts : List RefreshToken) (s : Session authTables.backend) :
    (AuthService.revokeEach ts).Ends
    (fun _ s' => s'.db = s.db ∧ s.world.clock ≤ s'.world.clock ∧ ∃ ops, Revokes ts ops ∧
        s'.dirty = s.dirty ++ ops) (fun _ _ => False) s := by
  induction ts generalizing s with
  | nil => exact ⟨rfl, Nat.le_refl _, [], .nil, (List.append_nil _).symm⟩
  | cons t ts ih =>
    refine (now_elapses s).bind fun time s₁ hnow => ?_
    obtain ⟨h₁, -, -⟩ := hnow
    refine Prog.ends_set_bind ((ih _).mono ?_ fun _ _ h => h)
    rintro _ s₂ ⟨hdb, hclock, ops, hops, hdirty⟩
    refine ⟨hdb.trans h₁.db, Nat.le_trans h₁.clock hclock, .setRevokedAt t.id time :: ops,
      .cons ⟨time, rfl⟩ hops, ?_⟩
    rw [hdirty, h₁.dirty, List.append_assoc]
    rfl

theorem confirmPasswordReset_refines (hverify : cfg.Verifies) (h : Directory.Of cfg σ s.db)
    (hd : s.dirty = []) (token : Jwt)
    (newPassword : String) : Refines cfg σ (.confirmPasswordReset token newPassword) s := by
  unfold Refines
  simp only [AuthRequest.prog, AuthService.resetPassword, Prog.bind_assoc']
  refine ((now_elapses s).mono (fun _ _ h => h) fun _ _ h => h.elim).bind fun time s₁ hnow => ?_
  obtain ⟨h₁, hle, heq⟩ := hnow
  split
  · rename_i hdecode
    exact .inl (.inl ⟨rfl, time, ⟨hle, heq ▸ Nat.le_refl _⟩, not_taken_of_error hdecode⟩)
  rename_i claims hdecode
  obtain ⟨rfl, hlive, htype⟩ := decodeActionToken_ok hdecode
  simp only [Prog.bind_assoc']
  refine subject_user (h₁.db ▸ h) claims (fun e s' he => .inr ⟨trivial, he⟩) (fun id hsub hnone => ?_)
    fun u hu hsub a ha hof => ?_
  · exact .inl (.inr (.inl ⟨rfl, id, hsub, hnone⟩))
  · dsimp only
    split
    · rename_i hpfp
      exact .inl (.inr (.inr ⟨rfl, u.id, a, u.passwordHash, hsub, ha, hof.password, hpfp⟩))
    simp only [AuthService.hashPassword, AuthService.activeTokensFor, Prog.bind_assoc']
    refine ((random_elapses s₁).mono (fun _ _ h => h) fun _ _ h => h.elim).bind fun salt s₂ h₂ => ?_
    refine Prog.ends_set_bind (Prog.ends_query_bind ?_)
    refine ((revokeEach_revokes _ _).mono (fun _ _ h => h) fun _ _ h => h.elim).bind ?_
    rintro _ s₃ ⟨hdb, hclock, ops, hops, hdirty⟩
    have h' := h₁.trans h₂
    dsimp only at hdb hclock hops hdirty
    rw [h'.db] at hdb hops
    refine ⟨.inl trivial, _,
      ⟨u.id, time, ⟨hle, ?_⟩, ⟨htype, hlive, hsub⟩, by rw [ha]; rfl, rfl, rfl⟩, ?_⟩
    · rw [heq]
      exact Nat.le_trans h₂.clock hclock
    · have hset : Directory.Of cfg (σ.change u.id _) _ := h.setPasswordHash (hverify salt newPassword)
      rw [hdb, hdirty, h'.dirty, hd, ← hset.takeEach_eq u.id]
      refine hset.revokes hops fun t ht => ?_
      exact ⟨t, (Table.mem_select.1 ht).1, rfl, rfl⟩

theorem prog_refines (hverify : cfg.Verifies) (h : Directory.Of cfg σ s.db) (hd : s.dirty = [])
    (request : AuthRequest) :
    Refines cfg σ request s := by
  cases request with
  | register email password fullName => exact register_refines hverify h hd email password fullName
  | login ip email password => exact login_refines hverify h hd ip email password
  | refresh payload cookie => exact refresh_refines h hd payload cookie
  | logout payload cookie => exact logout_refines h hd payload cookie
  | verifyEmail token => exact verifyEmail_refines h hd token
  | requestPasswordReset ip email => exact requestPasswordReset_refines h hd ip email
  | confirmPasswordReset token newPassword =>
    exact confirmPasswordReset_refines hverify h hd token newPassword

end Directory

/-! ### Whole runs -/

/-- What the caller and the clock see of a call. -/
def AuthState.observe (cfg : Config) (s : AuthState) (c : AuthCall) : Observation :=
  ⟨c.req, s.answer cfg c, s.world.clock, (s.call cfg c).world.clock⟩

section
variable {cfg : Config} {σ : Directory} {s : AuthState}

theorem directory_simulates (hverify : cfg.Verifies) :
    Simulates (AuthState.call cfg) (AuthState.observe cfg)
    (fun σ o σ' => σ.Step cfg o σ') fun s σ => Directory.Of cfg σ s.db := by
  intro s c σ h
  rcases (Directory.prog_refines (s := ⟨s.db, [], s.world, c.envs⟩) hverify h rfl c.req).scope with
    ⟨a, s', db, ⟨-, σ', hanswers, hof⟩, hflush, hscope⟩ | ⟨e, s', he, hscope⟩
  · have hanswer : s.answer cfg c = .ok a := congrArg Prod.fst hscope
    have hcall : s.call cfg c = ⟨db, s'.world⟩ := congrArg Prod.snd hscope
    refine ⟨σ', ?_, ?_⟩
    · unfold Directory.Step AuthState.observe
      rw [hanswer, hcall]
      exact hanswers
    · rw [hcall]
      dsimp only
      rw [flushAll_eq hflush]
      exact hof
  · have hanswer : s.answer cfg c = .error e := congrArg Prod.fst hscope
    have hcall : s.call cfg c = ⟨s.db, s'.world⟩ := congrArg Prod.snd hscope
    refine ⟨σ, ?_, ?_⟩
    · unfold Directory.Step AuthState.observe
      rw [hanswer, hcall]
      refine ⟨rfl, ?_⟩
      rcases he with he | ⟨a, ⟨hfallible, -⟩, hflush⟩
      · exact he
      · rcases hfallible with hfallible | hdirty
        · exact .inr ⟨hfallible, flush_internal hflush⟩
        · rw [hdirty] at hflush
          cases hflush
    · rw [hcall]
      exact h

/-- Every run of the authentication service is one of the directory: the answers are the ones that
the directory allows, and the tables store the directory after them. -/
theorem auth_refines_directory (cfg : Config) (hverify : cfg.Verifies) (s : AuthState) (σ : Directory)
    (h : Directory.Of cfg σ s.db) (calls : List AuthCall) :
    ∃ σ', Explains (fun σ o σ' => Directory.Step cfg σ o σ') σ
      (observed (AuthState.call cfg) (AuthState.observe cfg) s calls) σ' ∧
      Directory.Of cfg σ' (run (AuthState.call cfg) s calls).db :=
  (directory_simulates hverify).run h calls

end

/-- A stand-in for the hash functions under which no two passwords share a hash. -/
def plainConfig : Config where
  toSettings := {}
  hashToken raw := "#" ++ raw
  hashPassword _ password := password
  verifyPassword password hash := password == hash
  passwordNeedsRehash _ := false
  lower s := s

theorem plainConfig_verifies : plainConfig.Verifies := fun _ _ _ => beq_iff_eq

/-- Before the first registration. -/
def Directory.empty : Directory := ⟨fun _ => none, fun _ => none⟩

theorem Directory.empty_of (cfg : Config) :
    Directory.Of cfg .empty (.initial .empty .empty .empty) where
  account u hu := absurd hu List.not_mem_nil
  user id a ha := by cases ha
  grant t ht := absurd ht List.not_mem_nil
  token hash g hg := by cases hg

def registerAda : AuthCall :=
  ⟨.register "ada@example.com" "pw" none, fun n => ⟨epoch + 1 * second, "salt", n, ()⟩⟩

def loginAda : AuthCall :=
  ⟨.login "10.0.0.1" "ada@example.com" "pw", fun n => ⟨epoch + 2 * second, "first", n, ()⟩⟩

def emptyState : AuthState := ⟨.initial .empty .empty .empty, sampleWorld⟩

/-- A registration, a login, and a refresh with its token. -/
theorem auth_refines_directory_sample : ∃ σ',
    Explains (fun σ o σ' => Directory.Step plainConfig σ o σ') .empty
    (observed (AuthState.call plainConfig) (AuthState.observe plainConfig) emptyState
      [registerAda, loginAda,
        ⟨.refresh (some "first") none, fun n => ⟨epoch + 3 * second, "second", n, ()⟩⟩]) σ' ∧
    Directory.Of plainConfig σ' (run (AuthState.call plainConfig) emptyState
      [registerAda, loginAda,
          ⟨.refresh (some "first") none, fun n => ⟨epoch + 3 * second, "second", n, ()⟩⟩]).db :=
  auth_refines_directory plainConfig plainConfig_verifies emptyState .empty
    (Directory.empty_of plainConfig) _

end TrafficPlatform
