import TrafficPlatform.Auth.Writes

/-!
# Refresh tokens under concurrency

`rotate` reads the token, inserts the successor and writes `revoked_at` and `rotated_to` later, so two
transactions can exchange one token. The link `rotated_to` of the committed row counts the exchanges:
it is set once the token has been exchanged and never taken away (`Tally`). A refresh token is used at
most once in a run exactly when every refresh commits while the row it exchanges still has no
successor.
-/

namespace TrafficPlatform
open Kit

variable (cfg : Config)

/-- How often the refresh token with hash `h` has been exchanged for a new token pair. -/
def exchanges (h : String) (history : List (AuthRequest × AuthAnswer)) : Nat :=
  history.countP fun x => x.1.exchangedHash cfg == some h

/-- The token with hash `h` has a successor. -/
def AuthDb.Rotated (db : AuthDb) (h : String) : Prop :=
  ∃ t ∈ db.refreshTokens.rows, t.tokenHash = h ∧ t.rotatedTo.isSome

/-- If the event commits a refresh, the committed row of its token has no successor yet. -/
def Unexchanged (s : AuthSystem) (e : AuthEvent) : Prop :=
  ∀ r a w, s.commits e = some (r, a, w) → ∀ t ∈ s.db.refreshTokens.rows,
    r.exchangedHash cfg = some t.tokenHash → t.rotatedTo = none

/-- The invariant: every transaction in flight is safe, and the tokens with a successor are those
that have been exchanged. -/
structure Tally (s : AuthSystem) : Prop where
  guarded : s.Guarded (fun _ => True) (fun _ _ => AuthDb.Grows) AuthOp.Own (AuthRequest.Writes cfg)
  rotated : ∀ h, s.db.Rotated h ↔ 0 < exchanges cfg h s.history

variable {cfg} {s : AuthSystem} {e : AuthEvent} {db : AuthDb} {h : String}

theorem AuthOp.Plain.rotated {o : AuthOp} (hp : o.Plain) : (o.apply db).Rotated h ↔ db.Rotated h := by
  have hsame : ∀ t, (o.onToken t).rotatedTo = t.rotatedTo := by
    intro t
    cases o with
    | setRevokedAt id time => simp only [onToken]; split <;> rfl
    | setRotatedTo id successor => exact hp.elim
    | _ => rfl
  constructor
  · rintro ⟨t', ht', hh, hr⟩
    rcases mem_tokens_apply.1 ht' with ⟨t, ht, rfl⟩ | ⟨rfl, -, -⟩
    · exact ⟨t, ht, (o.onToken_same t).tokenHash ▸ hh, hsame t ▸ hr⟩
    · rw [hp.2] at hr; cases hr
  · rintro ⟨t, ht, hh, hr⟩
    exact ⟨_, mem_tokens_apply.2 (.inl ⟨t, ht, rfl⟩), (o.onToken_same t).tokenHash.trans hh,
      hsame t ▸ hr⟩

theorem rotated_applyAll {w : List AuthOp} (hw : ∀ o ∈ w, o.Plain) :
    (applyAll authTables.backend w db).Rotated h ↔ db.Rotated h :=
  applyAll_invariant (B := authTables.backend) (P := fun db' => db'.Rotated h ↔ db.Rotated h)
    (fun o ho _ hp => (hw o ho).rotated.trans hp) Iff.rfl

/-- An exchange gives the token it exchanges a successor, and no other one. -/
theorem Exchanges.rotated {raw : String} {t : IssuedTokens} {w : List AuthOp}
    (hx : Exchanges cfg raw t w db) :
    (applyAll authTables.backend w db).Rotated h ↔ db.Rotated h ∨ h = cfg.hashToken raw := by
  obtain ⟨row, hrow, hhash, new, time, hi, -, rfl⟩ := hx
  set db₂ := applyAll authTables.backend [.addToken new, .setRevokedAt row.id time] db with hdb₂
  have hplain : db₂.Rotated h ↔ db.Rotated h := rotated_applyAll (by
    simp [AuthOp.Plain, hi.revokedAt, hi.rotatedTo])
  obtain ⟨row₂, hrow₂, hs⟩ := mem_tokens_applyAll
    (w := [AuthOp.addToken new, .setRevokedAt row.id time]) hrow
  rw [← hdb₂] at hrow₂
  rw [← hplain]
  change ((AuthOp.setRotatedTo row.id (some new.id)).apply db₂).Rotated h ↔ _
  constructor
  · rintro ⟨t', ht', hh, hr⟩
    rcases AuthOp.mem_tokens_apply.1 ht' with ⟨t, ht, rfl⟩ | ⟨he, -⟩
    · simp only [AuthOp.onToken] at hh hr
      split at hr
      · rename_i hid
        have heq : t = row₂ := Table.eq_of_clash ht hrow₂
          (RefreshToken.clash_iff.2 (.inl (by rw [hs.id]; simpa using hid)))
        simp only [hid, if_true] at hh
        exact .inr (by rw [← hh, heq, hs.tokenHash, hhash])
      · rename_i hid
        simp only [hid] at hh
        exact .inl ⟨t, ht, by simpa using hh, hr⟩
    · cases he
  · rintro (⟨t, ht, hh, hr⟩ | rfl)
    · have hk : (AuthOp.setRotatedTo row.id (some new.id)).Keeps := rfl
      have he := hk.onToken t
      exact ⟨_, AuthOp.mem_tokens_apply.2 (.inl ⟨t, ht, rfl⟩), he.tokenHash.trans hh, he.rotated hr⟩
    · refine ⟨_, AuthOp.mem_tokens_apply.2 (.inl ⟨row₂, hrow₂, rfl⟩), ?_, ?_⟩
      · rw [(AuthOp.onToken_same _ _).tokenHash, hs.tokenHash, hhash]
      · simp [AuthOp.onToken, hs.id]

/-- What a commit writes changes the successors of the token it exchanges, if any. -/
theorem AuthRequest.Writes.rotated {r : AuthRequest} {a : AuthAnswer} {w : List AuthOp}
    (hw : r.Writes cfg a w db) : (applyAll authTables.backend w db).Rotated h ↔
      db.Rotated h ∨ r.exchangedHash cfg = some h := by
  have others : (∀ o ∈ w, AuthOp.AddsNone o) → r.exchangedHash cfg = none →
      ((applyAll authTables.backend w db).Rotated h ↔ db.Rotated h ∨ r.exchangedHash cfg = some h) := by
    intro hp hn
    rw [rotated_applyAll fun o ho => (hp o ho).plain, hn]
    simp
  cases r with
  | login i e p =>
    obtain ⟨t, userId, new, ops, -, hi, hops, rfl⟩ := hw
    rw [rotated_applyAll fun o ho => ?_]
    · simp [exchangedHash]
    · rcases List.mem_append.1 ho with ho | ho
      · exact (hops o ho).plain
      · rw [List.mem_singleton.1 ho]; exact ⟨hi.revokedAt, hi.rotatedTo⟩
  | refresh p c =>
    obtain ⟨raw, t, hraw, -, hx⟩ := hw
    rw [hx.rotated]
    simp [exchangedHash, hraw, eq_comm]
  | register email password fullName => exact others hw rfl
  | logout payload cookie => exact others hw rfl
  | verifyEmail token => exact others hw rfl
  | requestPasswordReset clientIp email => exact others hw rfl
  | confirmPasswordReset token newPassword => exact others hw rfl

theorem exchanges_next (h : String) : exchanges cfg h (authNext cfg s e).history =
    exchanges cfg h s.history + match s.commits e with
      | some (r, _, _) => if r.exchangedHash cfg = some h then 1 else 0
      | none => 0 := by
  rw [System.next_history (AuthRequest.prog cfg) s e, exchanges, List.countP_append]
  rcases s.commits e with _ | ⟨r, a, w⟩ <;> simp [exchanges, List.countP_cons]

theorem Tally.next (hs : Tally cfg s) (e : AuthEvent) : Tally cfg (authNext cfg s e) := by
  refine ⟨(authBounded cfg).next_guarded hs.guarded, fun h => ?_⟩
  rw [exchanges_next, System.next_db (AuthRequest.prog cfg) s e]
  rcases hc : s.commits e with _ | ⟨r, a, w⟩
  · exact hs.rotated h
  · simp only [((authBounded cfg).relies.of_commits hs.guarded hc).rotated, hs.rotated h]
    split <;> simp [*]

/-- One step: after it no token has been exchanged twice exactly when a refresh that commits
exchanges a token without a successor. -/
theorem Tally.next_once (hs : Tally cfg s) (h1 : ∀ h, exchanges cfg h s.history ≤ 1) :
    (∀ h, exchanges cfg h (authNext cfg s e).history ≤ 1) ↔ Unexchanged cfg s e := by
  constructor
  · intro hn r a w hc t ht hr
    have hx := hn t.tokenHash
    rw [exchanges_next, hc] at hx
    by_contra hne
    have hrot : s.db.Rotated t.tokenHash := ⟨t, ht, rfl, Option.isSome_iff_ne_none.2 hne⟩
    have := (hs.rotated _).1 hrot
    simp only [hr, if_true] at hx
    omega
  · intro hu h
    rw [exchanges_next]
    rcases hc : s.commits e with _ | ⟨r, a, w⟩
    · exact h1 h
    simp only
    split
    · rename_i hr
      -- no row of the token has a successor, so it has not been exchanged yet
      have hnot : ¬ s.db.Rotated h := by
        rintro ⟨t, ht, rfl, hrot⟩
        rw [hu r a w hc t ht hr] at hrot
        cases hrot
      have := mt (hs.rotated h).2 hnot
      omega
    · exact h1 h

theorem Tally.init (users : Table User) (roles : Table Role) (members : Table OrganizationMember)
    (world : World (List EmailMessage)) :
        Tally cfg (System.init (AuthDb.initial users roles members) world) :=
  ⟨(System.init_quiet _ _).guarded trivial, fun h => by
    simp [AuthDb.Rotated, System.init, AuthDb.initial, exchanges]⟩

/-- In every run of interleaved authentication requests, each refresh token is exchanged at most
once in every state if and only if every refresh commits while the committed row of its token has
no successor. -/
theorem exchanged_once_iff (cfg : Config) (users : Table User) (roles : Table Role)
    (members : Table OrganizationMember) (world : World (List EmailMessage)) (es : List AuthEvent) :
    Always (authNext cfg) (fun s => ∀ h, exchanges cfg h s.history ≤ 1)
        (System.init (AuthDb.initial users roles members) world) es ↔
      Meets (authNext cfg) (Unexchanged cfg)
        (System.init (AuthDb.initial users roles members) world) es :=
  always_iff_meets (I := Tally cfg) (fun _ e hs => hs.next e) (fun _ _ hs h1 => hs.next_once h1)
    (Tally.init users roles members world) fun h => by simp [System.init, exchanges]

/-- One login, and two refreshes of its token: the second transaction runs between the first one's
read of the token and its writes. -/
def refreshRace : List AuthEvent :=
  .start (.login "10.0.0.1" "ada@example.com" "pw") ::
    List.replicate 20 (.step 0 (sampleEnv 1 "first")) ++
  [.start (.refresh (some "first") none), .start (.refresh (some "first") none)] ++
  List.replicate 3 (.step 1 (sampleEnv 2 "second")) ++
    List.replicate 20 (.step 2 (sampleEnv 2 "third")) ++
  List.replicate 20 (.step 1 (sampleEnv 2 "second"))

/-- Two interleaved refreshes exchange one token. -/
theorem exchanged_twice : ¬ ∀ (cfg : Config) (users : Table User) (roles : Table Role)
    (members : Table OrganizationMember) (world : World (List EmailMessage)) (es : List AuthEvent),
    Always (authNext cfg) (fun s => ∀ h, exchanges cfg h s.history ≤ 1)
      (System.init (AuthDb.initial users roles members) world) es := by
  intro h
  have hrun := always_iff.1 (h sampleConfig (Table.empty.insert sampleUser) .empty .empty sampleWorld
    refreshRace) refreshRace [] (List.append_nil _).symm "#first"
  have htwo : exchanges sampleConfig "#first"
      (run (authNext sampleConfig) (System.init sampleDb sampleWorld)
      refreshRace).history = 2 := by decide +kernel
  rw [show AuthDb.initial (Table.empty.insert sampleUser) .empty .empty = sampleDb from rfl,
    htwo] at hrun
  omega

end TrafficPlatform
