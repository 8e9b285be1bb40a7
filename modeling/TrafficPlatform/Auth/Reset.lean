import TrafficPlatform.Auth.Tokens

/-!
# A password reset among concurrent refreshes

`reset_password` selects the active tokens of the user and revokes those; a refresh in flight can add a
successor that the select does not see. The reset ends every session when no refresh of a token of the
user commits after the reset has read the active tokens and before it has ended, and none commits on a
token that has been revoked meanwhile (`ResetSafe`): then the reset revokes all tokens of the user, and
a token that is revoked when a refresh starts is not exchanged.
-/

namespace TrafficPlatform
open Kit

/-- The user that a reset token names. -/
def Jwt.sub : Jwt → Option Uuid
  | .signed claims => match claims.get "sub" with
    | some (.uuid id) => some id
    | _ => none
  | .other _ => none

/-- A `/auth/refresh` or `/auth/logout` call. -/
def AuthRequest.Session : AuthRequest → Prop
  | .refresh _ _ => True
  | .logout _ _ => True
  | _ => False

/-- Only refreshes and logouts start. -/
def SessionCalls (es : List AuthEvent) : Prop := ∀ r, Event.start r ∈ es → r.Session

/-- Every refresh token of `u` is revoked. -/
def AuthDb.AllRevoked (u : Uuid) (db : AuthDb) : Prop :=
  ∀ t ∈ db.refreshTokens.rows, t.userId = u → t.revokedAt.isSome

/-- Every refresh token of `u` in `db'` was in `db`. -/
def AuthDb.NoNew (u : Uuid) (db db' : AuthDb) : Prop :=
  ∀ t' ∈ db'.refreshTokens.rows, t'.userId = u → ∃ t ∈ db.refreshTokens.rows, t.Evolves t'

variable (cfg : Config) (u : Uuid) (token : Jwt) (newPassword : String)

/-- If the event commits a refresh of a token of `u`: the committed row of the token is not revoked,
and the reset, if it is in flight, has still to read the active tokens. -/
def ResetSafe (s : AuthSystem) (e : AuthEvent) : Prop :=
  ∀ r a w, s.commits e = some (r, a, w) → ∀ t ∈ s.db.refreshTokens.rows,
    r.exchangedHash cfg = some t.tokenHash → t.userId = u → t.revokedAt = none ∧
      ∀ th ∈ s.threads, th.req = .confirmPasswordReset token newPassword →
        th.phase.Running fun p => ¬ p.Finishing

/-- The reset runs among `before` and `during`. Once it has committed and all of these transactions
have ended, no refresh that starts later exchanges a token of a family that `u` had when the reset
began. -/
def SessionsEnded (db : AuthDb) (world : World (List EmailMessage))
    (before during : List AuthEvent) : Prop :=
  let began := run (authNext cfg) (System.init db world) before
  let ended := run (authNext cfg) began (.start (.confirmPasswordReset token newPassword) :: during)
  (∃ a, (.confirmPasswordReset token newPassword, a) ∈ ended.history) → ended.Quiet →
    ∀ after, SessionCalls after → ∀ r a,
      (r, a) ∈ (run (authNext cfg) ended after).history.drop ended.history.length →
      ∀ t ∈ (run (authNext cfg) ended after).db.refreshTokens.rows, t.userId = u →
        (∃ t₀ ∈ began.db.refreshTokens.rows, t₀.userId = u ∧ t₀.familyId = t.familyId) →
          r.exchangedHash cfg ≠ some t.tokenHash

variable {cfg u token newPassword} {db db' : AuthDb} {w : List AuthOp}

namespace AuthDb.NoNew

theorem refl (db : AuthDb) : db.NoNew u db := fun t ht _ => ⟨t, ht, .refl t⟩

theorem trans {a b c : AuthDb} (h : a.NoNew u b) (h' : b.NoNew u c) : a.NoNew u c := by
  intro t ht hu
  obtain ⟨t₁, ht₁, he₁⟩ := h' t ht hu
  obtain ⟨t₂, ht₂, he₂⟩ := h t₁ ht₁ (he₁.userId ▸ hu)
  exact ⟨t₂, ht₂, he₂.trans he₁⟩

theorem apply {o : AuthOp} (h : o.Keeps) (hn : ∀ t, o = .addToken t → t.userId ≠ u) (db : AuthDb) :
    db.NoNew u (o.apply db) := by
  intro t' ht' hu
  rcases AuthOp.mem_tokens_apply.1 ht' with ⟨t, ht, rfl⟩ | ⟨ho, -⟩
  · exact ⟨t, ht, h.onToken t⟩
  · exact absurd hu (hn t' ho)

theorem applyAll (hk : ∀ o ∈ w, o.Keeps) (hn : ∀ t, AuthOp.addToken t ∈ w → t.userId ≠ u)
    (db : AuthDb) :
    db.NoNew u (applyAll authTables.backend w db) :=
  applyAll_invariant (B := authTables.backend) (P := db.NoNew u)
    (fun _ ho _ h => h.trans (apply (hk _ ho) (fun t he => hn t (he ▸ ho)) _)) (.refl db)

theorem allRevoked (h : db.NoNew u db') (ha : db.AllRevoked u) : db'.AllRevoked u := by
  intro t ht hu
  obtain ⟨t₀, ht₀, he⟩ := h t ht hu
  exact he.revoked (ha t₀ ht₀ (he.userId ▸ hu))

end AuthDb.NoNew

theorem AuthRequest.Writes.noNew {r : AuthRequest} {a : AuthAnswer} (h : r.Writes cfg a w db)
    (hs : r.Session)
    (hx : ∀ t ∈ db.refreshTokens.rows, r.exchangedHash cfg = some t.tokenHash → t.userId ≠ u) :
    db.NoNew u (applyAll authTables.backend w db) := by
  refine .applyAll h.keeps (fun t ht => ?_) db
  cases r with
  | refresh p c =>
    obtain ⟨raw, i, hraw, -, row, hrow, hh, new, time, hi, -, rfl⟩ := h
    simp only [List.mem_cons, AuthOp.addToken.injEq, reduceCtorEq, List.not_mem_nil, or_false] at ht
    rw [ht, hi.userId]
    exact hx row hrow (by rw [exchangedHash, hraw, Option.map_some, hh])
  | logout p c => exact absurd (h _ ht) id
  | _ => exact hs.elim

/-! ### While the reset runs -/

/-- Once the reset has read the active tokens, it relies on the others adding no token of `u`. -/
def resetRely (u : Uuid) (token : Jwt) (newPassword : String) (r : AuthRequest) (p : Auth AuthAnswer)
    (db db' : AuthDb) : Prop :=
  db.Grows db' ∧ (r = .confirmPasswordReset token newPassword → p.Finishing → db.NoNew u db')

/-- Every token of `u` is revoked, or about to be: by one of the writes, or because it is in `ts`. -/
def Pending (u : Uuid) (ts : List RefreshToken) (w : List AuthOp) (db : AuthDb) : Prop :=
  ∀ t ∈ db.refreshTokens.rows, t.userId = u →
    t.revokedAt.isSome ∨ (∃ time, AuthOp.setRevokedAt t.id time ∈ w) ∨ ∃ t' ∈ ts, t'.id = t.id

theorem Pending.mono {ts : List RefreshToken} (h : Pending u ts w db) (hn : db.NoNew u db') :
    Pending u ts w db' := by
  intro t ht hu
  obtain ⟨t₀, ht₀, he⟩ := hn t ht hu
  rcases h t₀ ht₀ (he.userId ▸ hu) with hr | ⟨time, hw⟩ | ⟨t', ht', hid⟩
  · exact .inl (he.revoked hr)
  · exact .inr (.inl ⟨time, he.id ▸ hw⟩)
  · exact .inr (.inr ⟨t', ht', hid.trans he.id.symm⟩)

theorem revokeEach_finishing (ts : List RefreshToken) (a : AuthAnswer) :
    (AuthService.revokeEach ts >>= fun _ => Prog.flush (Prog.ret a)).Finishing := by
  induction ts with
  | nil => trivial
  | cons t ts ih =>
    simp only [AuthService.revokeEach, now, Prog.bind_assoc']
    exact Prog.finishing_ask fun time => ih

/-- The loop of the reset revokes every token of `u`. -/
theorem revokeEach_safe (a : AuthAnswer) (ts : List RefreshToken) {d : List AuthOp} {db : AuthDb}
    (h : Pending u ts d db) : Prog.Safe (B := authTables.backend)
      (resetRely u token newPassword (.confirmPasswordReset token newPassword)) AuthOp.Own
      (fun _ _ w db => Pending u [] w db)
      (AuthService.revokeEach ts >>= fun _ => Prog.flush (Prog.ret a)) d [] db := by
  induction ts generalizing d db with
  | nil =>
    intro db₁ h₁ _ db₂ h₂ _
    exact (h.mono (h₁.2 rfl trivial)).mono (h₂.2 rfl trivial)
  | cons t ts ih =>
    have hfin := revokeEach_finishing (t :: ts) a
    simp only [AuthService.revokeEach, now, Prog.bind_assoc'] at hfin ⊢
    refine Prog.Safe.ask_at fun db₁ h₁ _ time db₂ h₂ _ => ih ?_
    have hp := (h.mono (h₁.2 rfl hfin)).mono (h₂.2 rfl (revokeEach_finishing ts a))
    intro t' ht' hu
    rcases hp t' ht' hu with hr | ⟨time', hw⟩ | ⟨t'', ht'', hid⟩
    · exact .inl hr
    · exact .inr (.inl ⟨time', List.mem_append_left _ hw⟩)
    · rcases List.mem_cons.1 ht'' with rfl | ht''
      · exact .inr (.inl ⟨time, by simp [hid]⟩)
      · exact .inr (.inr ⟨t'', ht'', hid⟩)

theorem sub_of_decode {time : Time} {purpose : String} {claims : Claims}
    (h : decodeActionToken time token purpose = .ok claims) (hs : token.sub = some u) :
    AuthService.subject claims = pure u := by
  obtain ⟨rfl, -⟩ := decodeActionToken_ok h
  simp only [Jwt.sub] at hs
  split at hs
  · rename_i id hsub
    cases hs
    simp only [AuthService.subject, hsub]
  · cases hs

/-- A reset that commits revokes every token that `u` has then. -/
theorem reset_safe (hs : token.sub = some u) (db : AuthDb) : Prog.Safe (B := authTables.backend)
    (resetRely u token newPassword (.confirmPasswordReset token newPassword)) AuthOp.Own
    (fun _ _ w db => Pending u [] w db)
    ((AuthRequest.confirmPasswordReset token newPassword).prog cfg).commit [] [] db := by
  simp only [Prog.commit, AuthRequest.prog, AuthService.resetPassword, now, Prog.bind_assoc']
  refine Prog.Safe.ask_at fun db₁ _ _ time => ?_
  split
  · trivial
  rename_i claims hdecode
  simp only [sub_of_decode hdecode hs, Prog.pure_eq, Prog.ret_bind, UserRepository.get,
    Prog.bind_assoc']
  refine Prog.Safe.query fun db₂ _ _ => ?_
  split
  · trivial
  rename_i user huser
  have hid : user.id = u := by simpa using Table.pred_of_one huser
  split
  · trivial
  simp only [AuthService.hashPassword, random, AuthService.activeTokensFor, Prog.bind_assoc',
    Prog.pure_eq,
    Prog.ret_bind]
  refine Prog.Safe.ask_at fun db₃ _ _ salt db₄ _ _ => Prog.Safe.query fun db₅ _ _ => ?_
  refine revokeEach_safe _ _ fun t ht hu => ?_
  by_cases hrev : t.revokedAt.isSome
  · exact .inl hrev
  · exact .inr (.inr ⟨t, Table.mem_select.2 ⟨ht, by simpa [hid, hu] using hrev⟩, rfl⟩)

theorem resetRelies (cfg : Config) (newPassword : String) (hs : token.sub = some u) :
    Relies (AuthRequest.prog cfg) (fun _ => True) (resetRely u token newPassword) AuthOp.Own
      (fun r a w db => r.Writes cfg a w db ∧
        (r = .confirmPasswordReset token newPassword → Pending u [] w db)) where
  refl _ _ db := ⟨.refl db, fun _ _ => .refl db⟩
  trans _ _ _ _ _ h h' := ⟨h.1.trans h'.1, fun hr hp => (h.2 hr hp).trans (h'.2 hr hp)⟩
  check := (authBounded cfg).check
  stable := (authBounded cfg).stable
  safe r db _ := by
    refine Prog.Safe.and (((authBounded cfg).relies.safe r db trivial).rely_mono fun _ _ _ h => h.1) ?_
    by_cases hr : r = .confirmPasswordReset token newPassword
    · subst hr
      exact (reset_safe hs db).mono fun _ _ _ _ h _ => h
    · exact (((authBounded cfg).relies.safe r db trivial).rely_mono fun _ _ _ h => h.1).mono
        fun _ _ _ _ _ h => absurd h hr

theorem revoked_applyAll {id : Uuid} {time : Time} (hw : AuthOp.setRevokedAt id time ∈ w)
    (hk : ∀ o ∈ w, o.AddsNone) :
      ∀ t ∈ (applyAll authTables.backend w db).refreshTokens.rows, t.id = id →
      t.revokedAt.isSome := by
  induction w generalizing db with
  | nil => cases hw
  | cons o w ih =>
    have htail : ∀ o ∈ w, AuthOp.AddsNone o := fun o ho => hk o (List.mem_cons_of_mem _ ho)
    rcases List.mem_cons.1 hw with rfl | hw
    · -- the rows with this id are revoked now, and the other writes keep that
      change ∀ t ∈ (applyAll authTables.backend w
        ((AuthOp.setRevokedAt id time).apply db)).refreshTokens.rows, _
      refine applyAll_invariant (B := authTables.backend)
        (P := fun db => ∀ t ∈ db.refreshTokens.rows, t.id = id → t.revokedAt.isSome) ?_ ?_
      · intro o ho db h t ht hid
        rcases AuthOp.mem_tokens_apply.1 ht with ⟨t₀, ht₀, rfl⟩ | ⟨rfl, -⟩
        · have he := (htail o ho).plain.keeps.onToken t₀
          exact he.revoked (h t₀ ht₀ (he.id ▸ hid))
        · exact (htail _ ho).elim
      · intro t ht hid
        rcases AuthOp.mem_tokens_apply.1 ht with ⟨t₀, ht₀, rfl⟩ | ⟨ho, -⟩
        · rw [(AuthOp.onToken_same _ t₀).id] at hid
          simp [AuthOp.onToken, hid]
        · cases ho
    · exact ih hw htail

theorem Pending.allRevoked (h : Pending u [] w db) (hk : ∀ o ∈ w, o.AddsNone) :
    (applyAll authTables.backend w db).AllRevoked u := by
  intro t ht hu
  have hn : db.NoNew u (applyAll authTables.backend w db) :=
    .applyAll (fun o ho => (hk o ho).plain.keeps) (fun _ ho => (hk _ ho).elim) db
  obtain ⟨t₀, ht₀, he⟩ := hn t ht hu
  rcases h t₀ ht₀ (he.userId ▸ hu) with hr | ⟨time, hw⟩ | ⟨t', ht', -⟩
  · exact he.revoked hr
  · exact revoked_applyAll hw hk t ht he.id
  · cases ht'

/-- The invariant of a run with the reset: the transactions in flight are safe, they are the reset
and refreshes and logouts, and once the reset has committed every token of `u` is revoked. -/
structure ResetRun (cfg : Config) (u : Uuid) (token : Jwt) (newPassword : String)
    (s : AuthSystem) : Prop where
  guarded : s.Guarded (fun _ => True) (resetRely u token newPassword) AuthOp.Own
    (fun r a w db => r.Writes cfg a w db ∧
      (r = .confirmPasswordReset token newPassword → Pending u [] w db))
  only : s.Only fun r => r.Session ∨ r = .confirmPasswordReset token newPassword
  done : (∃ a, (.confirmPasswordReset token newPassword, a) ∈ s.history) → s.db.AllRevoked u

theorem ResetRun.noNew {s : AuthSystem} {e : AuthEvent} {r : AuthRequest} {a : AuthAnswer}
    (hs : token.sub = some u) (h : ResetRun cfg u token newPassword s)
    (hc : s.commits e = some (r, a, w))
    (hx : ∀ t ∈ s.db.refreshTokens.rows, r.exchangedHash cfg = some t.tokenHash → t.userId ≠ u) :
    s.db.NoNew u (applyAll authTables.backend w s.db) := by
  have hw := ((resetRelies cfg newPassword hs).of_commits h.guarded hc).1
  rcases h.only.commits hc with hr | rfl
  · exact hw.noNew hr hx
  · exact .applyAll hw.keeps (fun t ht => (hw _ ht).elim) s.db

theorem ResetRun.next (hs : token.sub = some u) {s : AuthSystem} {e : AuthEvent}
    (h : ResetRun cfg u token newPassword s) (hc : ResetSafe cfg u token newPassword s e)
    (he : ∀ r, e = .start r → r.Session ∨ r = .confirmPasswordReset token newPassword) :
    ResetRun cfg u token newPassword (authNext cfg s e) := by
  have hdb := System.next_db (AuthRequest.prog cfg) s e
  have hrelies := resetRelies cfg newPassword hs
  refine ⟨hrelies.next_guarded h.guarded trivial fun th hth => ?_, h.only.next he, ?_⟩
  · cases hph : th.phase with
    | committed a => trivial
    | rolledBack x => trivial
    | running p d w' =>
      rw [Phase.Running, hdb]
      rcases hcommit : s.commits e with _ | ⟨r, a, w⟩
      · exact hrelies.refl _ _ _
      · refine ⟨.applyAll (hrelies.of_commits h.guarded hcommit).1.keeps _, fun hreq hfin => ?_⟩
        refine h.noNew hs hcommit fun t ht hx hu => ?_
        have := (hc r a w hcommit t ht hx hu).2 th hth hreq
        rw [hph] at this
        exact this hfin
  · rintro ⟨a', ha'⟩
    rw [authNext, System.next_history (AuthRequest.prog cfg) s e] at ha'
    rw [authNext, hdb]
    rcases hcommit : s.commits e with _ | ⟨r, a, w⟩
    · rw [hcommit] at ha'
      exact h.done ⟨a', by simpa using ha'⟩
    · rw [hcommit] at ha'
      rcases List.mem_append.1 ha' with ha' | ha'
      · have hall := h.done ⟨a', ha'⟩
        refine (h.noNew hs hcommit fun t ht hx hu => ?_).allRevoked hall
        have hr := hall t ht hu
        rw [(hc r a w hcommit t ht hx hu).1] at hr
        cases hr
      · cases List.mem_singleton.1 ha'
        obtain ⟨hw, hp⟩ := hrelies.of_commits h.guarded hcommit
        exact (hp rfl).allRevoked hw

/-! ### After the reset -/

/-- While every token of `u` is revoked, the database grows and they stay revoked. -/
def revokedRely (u : Uuid) (db db' : AuthDb) : Prop := db.Grows db' ∧
    (db.AllRevoked u → db'.AllRevoked u)

theorem revokedRely.isRely : AuthRely (revokedRely u) :=
  ⟨fun db => ⟨.refl db, id⟩, fun _ _ _ h h' => ⟨h.1.trans h'.1, h'.2 ∘ h.2⟩, fun h => h.1⟩

/-- The token that `r` exchanges, if any, is not one of `u`. -/
def Foreign (cfg : Config) (u : Uuid) (r : AuthRequest) (db : AuthDb) : Prop :=
  ∀ t ∈ db.refreshTokens.rows, r.exchangedHash cfg = some t.tokenHash → t.userId ≠ u

theorem Saw.foreign {r : AuthRequest}
    (h : ∀ h, r.exchangedHash cfg = some h → Saw (revokedRely u) h db db')
    (ha : db.AllRevoked u) : Foreign cfg u r db' := by
  intro t ht hx hu
  obtain ⟨db₁, stored, h₁, h₂, hm, hh, hrev⟩ := h _ hx
  obtain ⟨t', ht', he⟩ := h₂.1.tokens stored hm
  have heq : t' = t :=
    Table.eq_of_clash ht' ht (RefreshToken.clash_iff.2 (.inr (he.tokenHash.trans hh)))
  subst heq
  have := h₁.2 ha stored hm (he.userId ▸ hu)
  rw [hrev] at this
  cases this

theorem revokedRelies (cfg : Config) (u : Uuid) : Relies (AuthRequest.prog cfg) (AuthDb.AllRevoked u)
    (fun _ _ => revokedRely u) AuthOp.Own
        (fun r a w db => r.Writes cfg a w db ∧ Foreign cfg u r db) where
  refl _ _ := revokedRely.isRely.refl
  trans _ _ := revokedRely.isRely.trans
  check := (authBounded cfg).check
  stable := (authBounded cfg).stable
  safe r db hi := by
    refine Prog.Safe.bind (fun _ => revokedRely.isRely.refl) (by simp)
      ((r.prog_safe revokedRely.isRely db).closure (fun _ => revokedRely.isRely.trans) ?_)
    intro a d w db₀ hq db₁ h₁ _ db₂ h₂ ho
    obtain ⟨hw, hsaw⟩ :=
      hq db₂ (revokedRely.isRely.trans _ _ _ h₁ h₂) fun o hw => ho o (List.mem_append_left _ hw)
    exact ⟨hw, Saw.foreign hsaw hi⟩

/-- The invariant after the reset: the tokens of `u` stay revoked and none of them is exchanged from
the `n`-th commit on. -/
structure RevokedRun (cfg : Config) (u : Uuid) (n : Nat) (s : AuthSystem) : Prop where
  guarded : s.Guarded (AuthDb.AllRevoked u) (fun _ _ => revokedRely u) AuthOp.Own
    (fun r a w db => r.Writes cfg a w db ∧ Foreign cfg u r db)
  only : s.Only AuthRequest.Session
  length : n ≤ s.history.length
  foreign : ∀ r a, (r, a) ∈ s.history.drop n → Foreign cfg u r s.db

theorem RevokedRun.next {n : Nat} {s : AuthSystem} {e : AuthEvent} (h : RevokedRun cfg u n s)
    (he : ∀ r, e = .start r → r.Session) : RevokedRun cfg u n (authNext cfg s e) := by
  have hrelies := revokedRelies cfg u
  have hdb := System.next_db (AuthRequest.prog cfg) s e
  have hrel : revokedRely u s.db (authNext cfg s e).db ∧ s.db.NoNew u (authNext cfg s e).db := by
    rw [authNext, hdb]
    rcases hcommit : s.commits e with _ | ⟨r, a, w⟩
    · exact ⟨revokedRely.isRely.refl _, .refl _⟩
    · obtain ⟨hw, hf⟩ := hrelies.of_commits h.guarded hcommit
      have hn := hw.noNew (h.only.commits hcommit) hf
      exact ⟨⟨.applyAll hw.keeps _, hn.allRevoked⟩, hn⟩
  have hforeign : ∀ r, Foreign cfg u r s.db → Foreign cfg u r (authNext cfg s e).db := by
    intro r hf t ht hx hu
    obtain ⟨t₀, ht₀, he⟩ := hrel.2 t ht hu
    exact hf t₀ ht₀ (he.tokenHash ▸ hx) (he.userId ▸ hu)
  have hhist := System.next_history (AuthRequest.prog cfg) s e
  refine ⟨hrelies.next_guarded h.guarded (hrel.1.2 h.guarded.inv)
    fun th _ => ?_, h.only.next he, ?_, ?_⟩
  · cases th.phase with
    | running p d w => exact hrel.1
    | committed a => trivial
    | rolledBack x => trivial
  · rw [authNext, hhist, List.length_append]
    exact Nat.le_add_right_of_le h.length
  · intro r a hra
    rw [authNext, hhist, List.drop_append_of_le_length h.length] at hra
    rcases List.mem_append.1 hra with hra | hra
    · exact hforeign r (h.foreign r a hra)
    · rcases hcommit : s.commits e with _ | ⟨r', a', w⟩
      · rw [hcommit] at hra; cases hra
      · rw [hcommit] at hra
        cases List.mem_singleton.1 hra
        exact hforeign r (hrelies.of_commits h.guarded hcommit).2

/-! ### The whole run -/

theorem ResetRun.run (hs : token.sub = some u) {es : List AuthEvent} {s : AuthSystem}
    (h : ResetRun cfg u token newPassword s)
    (he : ∀ r, Event.start r ∈ es → r.Session ∨ r = .confirmPasswordReset token newPassword)
    (hm : Meets (authNext cfg) (ResetSafe cfg u token newPassword) s es) :
    ResetRun cfg u token newPassword (run (authNext cfg) s es) := by
  induction es generalizing s with
  | nil => exact h
  | cons e es ih =>
    exact ih (h.next hs hm.1 fun r hr => he r (by simp [hr]))
      (fun r hr => he r (List.mem_cons_of_mem _ hr)) hm.2

theorem RevokedRun.run {n : Nat} {es : List AuthEvent} {s : AuthSystem} (h : RevokedRun cfg u n s)
    (he : SessionCalls es) : RevokedRun cfg u n (run (authNext cfg) s es) := by
  induction es generalizing s with
  | nil => exact h
  | cons e es ih =>
    exact ih (h.next fun r hr => he r (by simp [hr])) fun r hr => he r (List.mem_cons_of_mem _ hr)

/-- A password reset ends every session of its user, in every run in which no refresh of a token of the
user commits between the reset's read of the active tokens and its end, or on a revoked token. -/
theorem reset_ends_sessions (cfg : Config) (u : Uuid) (token : Jwt) (newPassword : String)
    (hs : token.sub = some u) (db : AuthDb) (world : World (List EmailMessage))
    (before during : List AuthEvent) (hb : SessionCalls before) (hd : SessionCalls during)
    (hsafe : Meets (authNext cfg) (ResetSafe cfg u token newPassword) (System.init db world)
      (before ++ .start (.confirmPasswordReset token newPassword) :: during)) :
    SessionsEnded cfg u token newPassword db world before during := by
  intro hcommit hquiet after ha r a hra t ht hu _ hx
  have hinit : ResetRun cfg u token newPassword (System.init db world) :=
    ⟨(System.init_quiet _ _).guarded trivial, (System.init_quiet _ _).only, fun ⟨_, h⟩ => by cases h⟩
  have hended := hinit.run hs (fun r hr => ?_) hsafe
  · rw [run_append] at hended
    have hstart : RevokedRun cfg u _ _ :=
      ⟨hquiet.guarded (hended.done hcommit), hquiet.only, Nat.le_refl _,
      fun r a h => by rw [List.drop_length] at h; cases h⟩
    exact (hstart.run ha).foreign r a hra t ht hx hu
  · rcases List.mem_append.1 hr with hr | hr
    · exact .inl (hb r hr)
    · rcases List.mem_cons.1 hr with hr | hr
      · exact .inr (Event.start.inj hr)
      · exact .inl (hd r hr)

/-- The reset token that `sampleUser` was sent. -/
def sampleResetToken : Jwt :=
  createActionToken 1 AuthService.resetPurpose AuthService.resetTtl
    [("pfp", .text (sampleConfig.fingerprint "salt$pw"))] (epoch + second)

/-- `sampleDb` with one session of `sampleUser`. -/
def sampleSession : AuthDb :=
  (AuthOp.addToken ⟨7, 1, 8, "#first", epoch + 1000 * second, none, none⟩).apply sampleDb

/-- With these answers of the environment the program comes to a statement. -/
def comesToStatement {B : Backend} {α : Type} (env : B.Env) (world : B.World) : Prog B α → Bool
  | .ret _ => false
  | .raise _ => false
  | .stmt _ _ => true
  | .io f k => comesToStatement env world (k (f env world).1)
  | .assign _ p => comesToStatement env world p
  | .flush p => comesToStatement env world p

theorem not_finishing {B : Backend} {α : Type} {env : B.Env} {world : B.World} {p : Prog B α}
    (h : comesToStatement env world p = true) : ¬ p.Finishing := by
  induction p with
  | ret a => cases h
  | raise e => cases h
  | stmt f k ih => exact id
  | io f k ih => exact fun hf => ih _ h (hf _)
  | assign o p ih => exact ih h
  | flush p ih => exact ih h

/-- The transaction has ended, or it comes to a statement. -/
def hasStatement : Phase authTables.backend AuthAnswer → Bool
  | .running p _ _ => comesToStatement (sampleEnv 2 "third") sampleWorld p
  | .committed _ => true
  | .rolledBack _ => true

/-- A commit that is seen to meet the condition. -/
def commitsSafely (s : AuthSystem) (e : AuthEvent) : Bool :=
  match s.commits e with
  | none => true
  | some (r, _, _) => s.db.refreshTokens.rows.all fun t =>
      r.exchangedHash sampleConfig != some t.tokenHash || t.revokedAt.isNone && s.threads.all fun th =>
        th.req != .confirmPasswordReset sampleResetToken "new" || hasStatement th.phase

theorem resetSafe_of_commitsSafely {s : AuthSystem} {e : AuthEvent} (h : commitsSafely s e = true) :
    ResetSafe sampleConfig 1 sampleResetToken "new" s e := by
  intro r a w hc t ht hx _
  rw [commitsSafely, hc, List.all_eq_true] at h
  have ht' := h t ht
  rw [hx, bne_self_eq_false, Bool.false_or, Bool.and_eq_true, Option.isNone_iff_eq_none,
    List.all_eq_true] at ht'
  refine ⟨ht'.1, fun th hth hreq => ?_⟩
  have hstatement := ht'.2 th hth
  rw [hreq, bne_self_eq_false, Bool.false_or] at hstatement
  cases hp : th.phase with
  | running p d w =>
    rw [hp] at hstatement
    exact not_finishing hstatement
  | committed a => trivial
  | rolledBack e => trivial

/-- A refresh that has read its token when the reset starts, and commits before the reset reads the
active tokens. -/
def resetAfterRefresh : List AuthEvent × List AuthEvent :=
  (.start (.refresh (some "first") none) :: List.replicate 3 (.step 0 (sampleEnv 2 "second")),
    List.replicate 2 (.step 1 (sampleEnv 2 "third")) ++
      List.replicate 20 (.step 0 (sampleEnv 2 "second")) ++
      List.replicate 15 (.step 1 (sampleEnv 2 "third")))

/-- The refresh in flight commits first; the reset then ends its session as well. -/
theorem reset_ends_sessions_refreshed :
    let during := resetAfterRefresh.2
    let ended := run (authNext sampleConfig) (System.init sampleSession sampleWorld)
      (resetAfterRefresh.1 ++ .start (.confirmPasswordReset sampleResetToken "new") :: during)
    ((.refresh (some "first") none) ∈ ended.history.map (·.1) ∧
        (.confirmPasswordReset sampleResetToken "new", .message "Password has been reset.") ∈
          ended.history ∧ ended.Quiet) ∧
      SessionsEnded sampleConfig 1 sampleResetToken "new" sampleSession sampleWorld
        resetAfterRefresh.1 during := by
  have hsessions : SessionCalls resetAfterRefresh.1 ∧ SessionCalls resetAfterRefresh.2 := by
    refine ⟨fun r hr => ?_, fun r hr => ?_⟩
    · rcases List.mem_cons.1 hr with hr | hr
      · cases Event.start.inj hr
        trivial
      · cases (List.mem_replicate.1 hr).2
    · rcases List.mem_append.1 hr with hr | hr
      · rcases List.mem_append.1 hr with hr | hr <;> cases (List.mem_replicate.1 hr).2
      · cases (List.mem_replicate.1 hr).2
  have hsafely : Meets (authNext sampleConfig) (fun s e => commitsSafely s e = true)
      (System.init sampleSession sampleWorld)
      (resetAfterRefresh.1 ++ .start (.confirmPasswordReset sampleResetToken "new") ::
        resetAfterRefresh.2) := by decide +kernel
  refine ⟨by decide +kernel, reset_ends_sessions sampleConfig 1 sampleResetToken "new" rfl sampleSession sampleWorld
    resetAfterRefresh.1 resetAfterRefresh.2 hsessions.1 hsessions.2 ?_⟩
  refine Kit.meets_iff.2 fun es₁ e es₂ he => ?_
  exact resetSafe_of_commitsSafely (Kit.meets_iff.1 hsafely es₁ e es₂ he)

/-- A refresh that has read its token when the reset starts, and commits after it. -/
def resetRace : List AuthEvent × List AuthEvent :=
  (.start (.refresh (some "first") none) :: List.replicate 3 (.step 0 (sampleEnv 2 "second")),
    List.replicate 15 (.step 1 (sampleEnv 2 "third")) ++
      List.replicate 20 (.step 0 (sampleEnv 2 "second")))

/-- A later refresh exchanges the successor that the reset did not see. -/
def resetSurvivor : List AuthEvent :=
  .start (.refresh (some "second") none) :: List.replicate 20 (.step 2 (sampleEnv 3 "fourth"))

/-- The run of `resetRace` around a reset, before the reset starts and when all calls have ended. -/
def resetBegan : AuthSystem :=
  run (authNext sampleConfig) (System.init sampleSession sampleWorld) resetRace.1

def resetEnded : AuthSystem :=
  run (authNext sampleConfig) resetBegan
    (.start (.confirmPasswordReset sampleResetToken "new") :: resetRace.2)

def resetLater : AuthSystem := run (authNext sampleConfig) resetEnded resetSurvivor

theorem SessionsEnded.spec {cfg : Config} {u : Uuid} {token : Jwt} {newPassword : String} {db : AuthDb}
    {world : World (List EmailMessage)} {before during after : List AuthEvent}
    (h : SessionsEnded cfg u token newPassword db world before during) (ha : SessionCalls after)
    (began ended later : AuthSystem)
    (hb : began = run (authNext cfg) (System.init db world) before)
    (he : ended = run (authNext cfg) began (.start (.confirmPasswordReset token newPassword) :: during))
    (hl : later = run (authNext cfg) ended after) {a₀ : AuthAnswer}
    (hcommit : (.confirmPasswordReset token newPassword, a₀) ∈ ended.history) (hquiet : ended.Quiet)
    {t₀ t : RefreshToken} (ht₀ : t₀ ∈ began.db.refreshTokens.rows ∧ t₀.userId = u)
    (ht : t ∈ later.db.refreshTokens.rows ∧ t.userId = u) (hf : t₀.familyId = t.familyId) :
    ∀ x ∈ later.history.drop ended.history.length, x.1.exchangedHash cfg ≠ some t.tokenHash := by
  subst hb he hl
  exact fun x hx => h ⟨a₀, hcommit⟩ hquiet after ha x.1 x.2 hx t ht.1 ht.2 ⟨t₀, ht₀.1, ht₀.2, hf⟩

/-- A session survives the reset of its user's password. -/
theorem reset_leaves_session : ¬ ∀ (cfg : Config) (u : Uuid) (token : Jwt) (newPassword : String),
    token.sub = some u → ∀ (db : AuthDb) (world : World (List EmailMessage))
      (before during : List AuthEvent),
      SessionCalls before → SessionCalls during →
          SessionsEnded cfg u token newPassword db world before during := by
  intro h
  have hended :=
    h sampleConfig 1 sampleResetToken "new" rfl sampleSession sampleWorld resetRace.1 resetRace.2
    (fun r hr => ?_) (fun r hr => ?_)
  · have hcommit : (.confirmPasswordReset sampleResetToken "new", .message "Password has been reset.") ∈
        resetEnded.history := by decide +kernel
    have hquiet : resetEnded.Quiet := by decide +kernel
    obtain ⟨x, hx, hreq⟩ : ∃ x ∈ resetLater.history.drop resetEnded.history.length,
        x.1.exchangedHash sampleConfig = some "#second" := by decide +kernel
    obtain ⟨t₀, ht₀, hu₀, hf₀⟩ : ∃ t ∈ resetBegan.db.refreshTokens.rows, t.userId = 1 ∧
        t.familyId = 8 := by
      decide +kernel
    obtain ⟨t, ht, hu, hf, hh⟩ : ∃ t ∈ resetLater.db.refreshTokens.rows,
        t.userId = 1 ∧ t.familyId = 8 ∧ t.tokenHash = "#second" := by decide +kernel
    refine hended.spec (fun r hr => ?_) resetBegan resetEnded resetLater rfl rfl rfl hcommit
      hquiet ⟨ht₀, hu₀⟩
      ⟨ht, hu⟩ (hf₀.trans hf.symm) x hx (hreq.trans (congrArg some hh.symm))
    rcases List.mem_cons.1 hr with hr | hr
    · cases Event.start.inj hr; trivial
    · cases (List.mem_replicate.1 hr).2
  · rcases List.mem_cons.1 hr with hr | hr
    · cases Event.start.inj hr; trivial
    · cases (List.mem_replicate.1 hr).2
  · rcases List.mem_append.1 hr with hr | hr <;> cases (List.mem_replicate.1 hr).2

end TrafficPlatform
