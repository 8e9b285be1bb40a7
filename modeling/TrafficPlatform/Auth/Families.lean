import Mathlib.Data.List.Chain
import TrafficPlatform.Auth.Reuse
import TrafficPlatform.Kit.Ends

/-!
# Refresh-token families

A login starts a family, and every exchange appends a token to one: the exchanged token is revoked
and linked to the new one. So the links of a family are one chain, from the token of the login to
the newest one, and only the newest can be active.
-/

namespace TrafficPlatform
open Kit

/-- The tokens of a family, in the order in which they were added. -/
def AuthDb.family (db : AuthDb) (f : Uuid) : List RefreshToken :=
  db.refreshTokens.select fun t => t.familyId == f

/-- The tokens of a family are one user's, and a chain: each but the newest is revoked and was
exchanged for the next. -/
structure AuthDb.Chained (db : AuthDb) (f : Uuid) : Prop where
  owner : ∀ a ∈ db.family f, ∀ b ∈ db.family f, a.userId = b.userId
  links : (db.family f).IsChain fun a b => a.rotatedTo = some b.id ∧ a.revokedAt.isSome
  newest : ∀ a ∈ (db.family f).getLast?, a.rotatedTo = none

variable {cfg : Config} {db db' : AuthDb} {f : Uuid} {t row new : RefreshToken}

theorem AuthDb.mem_family : t ∈ db.family f ↔ t ∈ db.refreshTokens.rows ∧ t.familyId = f := by
  simp [AuthDb.family, Table.mem_select]

theorem AuthDb.chained_nil (h : db.family f = []) : db.Chained f := by
  refine ⟨?_, ?_, ?_⟩ <;> simp [h]

theorem AuthDb.chained_singleton (h : db.family f = [t]) (ht : t.rotatedTo = none) : db.Chained f := by
  refine ⟨?_, ?_, ?_⟩ <;> simp [h, ht]

theorem AuthDb.Chained.congr (h : db.Chained f) (hf : db'.family f = db.family f) : db'.Chained f :=
  ⟨hf ▸ h.owner, hf ▸ h.links, hf ▸ h.newest⟩

/-! ### One write -/

theorem AuthOp.family_apply {o : AuthOp} (h : ∀ t, o ≠ .addToken t) :
    (o.apply db).family f = (db.family f).map o.onToken := by
  have hrows : (o.apply db).refreshTokens.rows = db.refreshTokens.rows.map o.onToken := by
    cases o with
    | addToken t => exact absurd rfl (h t)
    | setRevokedAt id time => rfl
    | setRotatedTo id successor => rfl
    | _ => exact (List.map_id _).symm
  unfold AuthDb.family Table.select
  rw [hrows, List.filter_map]
  congr 1
  refine List.filter_congr fun t _ => ?_
  simp only [Function.comp_apply, (o.onToken_same t).familyId]

theorem AuthDb.family_addToken (hu : db.hasUser new.userId = true)
    (ha : db.refreshTokens.admits new = true) :
    ((AuthOp.addToken new).apply db).family f = db.family f ++
        if new.familyId = f then [new] else [] := by
  have hrows : ((AuthOp.addToken new).apply db).refreshTokens.rows =
      db.refreshTokens.rows ++ [new] := by
    simp only [AuthOp.apply, AuthDb.addToken, dif_pos hu, Table.rows_insert ha]
  unfold AuthDb.family Table.select
  rw [hrows, List.filter_append, List.filter_singleton]
  by_cases hf : new.familyId = f
  · simp [hf]
  · rw [if_neg hf, beq_eq_false_iff_ne.2 hf]
    rfl

theorem AuthOp.AddsNone.rotatedTo {o : AuthOp} (h : o.AddsNone) (t : RefreshToken) :
    (o.onToken t).rotatedTo = t.rotatedTo := by
  cases o with
  | setRevokedAt id time => simp only [AuthOp.onToken]; split <;> rfl
  | addToken t => exact h.elim
  | setRotatedTo id successor => exact h.elim
  | _ => rfl

theorem AuthOp.AddsNone.family {o : AuthOp} (h : o.AddsNone) :
    (o.apply db).family f = (db.family f).map o.onToken := by
  refine AuthOp.family_apply fun t ht => ?_
  rw [ht] at h
  exact h

theorem AuthOp.AddsNone.chained {o : AuthOp} (h : o.AddsNone) (hc : db.Chained f) :
    (o.apply db).Chained f := by
  refine ⟨?_, ?_, ?_⟩ <;> rw [h.family]
  · intro a' ha' b' hb'
    obtain ⟨a, ha, rfl⟩ := List.mem_map.1 ha'
    obtain ⟨b, hb, rfl⟩ := List.mem_map.1 hb'
    rw [(o.onToken_same a).userId, (o.onToken_same b).userId]
    exact hc.owner a ha b hb
  · refine List.isChain_map_of_isChain _ (fun a b hab => ?_) hc.links
    rw [h.rotatedTo, (o.onToken_same b).id]
    exact ⟨hab.1, (h.plain.keeps.onToken a).revoked hab.2⟩
  · intro a ha
    rw [List.getLast?_map] at ha
    obtain ⟨b, hb, rfl⟩ := Option.map_eq_some_iff.1 ha
    rw [h.rotatedTo]
    exact hc.newest b hb

theorem AuthDb.chained_applyAll {w : List AuthOp} (hw : ∀ o ∈ w, o.AddsNone) (h : db.Chained f) :
    (applyAll authTables.backend w db).Chained f :=
  applyAll_invariant (B := authTables.backend) (P := fun db => db.Chained f)
    (fun o ho _ => (hw o ho).chained) h

theorem AuthDb.family_nil_applyAll {w : List AuthOp} (hw : ∀ o ∈ w, o.AddsNone) (h : db.family f = []) :
    (applyAll authTables.backend w db).family f = [] := by
  refine applyAll_invariant (B := authTables.backend) (P := fun db => db.family f = [])
    (fun o ho db h => ?_) h
  exact ((hw o ho).family).trans (by rw [h, List.map_nil])

/-! ### An exchange -/

theorem AuthDb.Chained.active_last (hc : db.Chained row.familyId)
    (hrow : row ∈ db.refreshTokens.rows) (hrev : row.revokedAt = none) :
    ∃ older, db.family row.familyId = older ++ [row] := by
  obtain ⟨older, later, hfamily⟩ := List.append_of_mem (AuthDb.mem_family.2 ⟨hrow, rfl⟩)
  cases later with
  | nil => exact ⟨older, hfamily⟩
  | cons b later =>
    have hlinks := hc.links
    rw [hfamily, List.isChain_append_cons_cons] at hlinks
    simp [hrev] at hlinks

/-- The exchanged token. -/
def RefreshToken.exchanged (row new : RefreshToken) (time : Time) : RefreshToken :=
  { row with revokedAt := some time, rotatedTo := some new.id }

/-- What an exchange writes. -/
abbrev exchange (row new : RefreshToken) (time : Time) : List AuthOp :=
  [.addToken new, .setRevokedAt row.id time, .setRotatedTo row.id (some new.id)]

theorem AuthDb.family_exchange {time : Time} (hu : db.hasUser new.userId = true)
    (ha : db.refreshTokens.admits new = true) :
    (applyAll authTables.backend (exchange row new time) db).family f =
      (db.family f ++ if new.familyId = f then [new] else []).map
          fun t => if t.id = row.id then t.exchanged new time else t := by
  have hrevoke : ∀ db : AuthDb, ((AuthOp.setRevokedAt row.id time).apply db).family f =
      (db.family f).map (AuthOp.setRevokedAt row.id time).onToken :=
        fun _ => AuthOp.family_apply (by simp)
  have hrotate : ∀ db : AuthDb, ((AuthOp.setRotatedTo row.id (some new.id)).apply db).family f =
      (db.family f).map (AuthOp.setRotatedTo row.id (some new.id)).onToken :=
        fun _ => AuthOp.family_apply (by simp)
  change ((AuthOp.setRotatedTo row.id (some new.id)).apply
    ((AuthOp.setRevokedAt row.id time).apply ((AuthOp.addToken new).apply db))).family f = _
  rw [hrotate, hrevoke, AuthDb.family_addToken hu ha, List.map_map]
  refine List.map_congr_left fun t _ => ?_
  by_cases hid : t.id = row.id <;> simp [AuthOp.onToken, RefreshToken.exchanged, hid]

/-- An exchange closes the newest token of a family and appends the new one; it leaves the other
families alone. -/
theorem AuthDb.families_exchange {time : Time} {older : List RefreshToken}
    (hrow : row ∈ db.refreshTokens.rows) (hfamily : db.family row.familyId = older ++ [row])
    (hu : db.hasUser new.userId = true) (ha : db.refreshTokens.admits new = true)
    (hf : new.familyId = row.familyId) :
    (applyAll authTables.backend (exchange row new time) db).family row.familyId = older ++
      [row.exchanged new time, new] ∧
      ∀ f, f ≠ row.familyId → (applyAll authTables.backend (exchange row new time) db).family f =
          db.family f := by
  have hnew : new.id ≠ row.id :=
    fun he => Table.admits_iff.1 ha row hrow (RefreshToken.clash_iff.2 (.inl he.symm))
  have holder : ∀ t ∈ older, t.id ≠ row.id := by
    have hdistinct := db.refreshTokens.distinct.filter fun t => t.familyId == row.familyId
    rw [show db.refreshTokens.rows.filter (fun t => t.familyId == row.familyId) = older ++
      [row] from hfamily,
      List.pairwise_append] at hdistinct
    exact fun t ht he => hdistinct.2.2 t ht row (List.mem_singleton.2 rfl)
      (RefreshToken.clash_iff.2 (.inl he))
  constructor
  · rw [AuthDb.family_exchange hu ha, hfamily, if_pos hf]
    simp only [List.map_append, List.map_cons, List.map_nil, if_neg hnew, if_true,
      List.append_assoc, List.cons_append, List.nil_append]
    rw [List.map_congr_left (g := fun t => t) fun t ht => if_neg (holder t ht), List.map_id']
  · intro f hne
    rw [AuthDb.family_exchange hu ha, if_neg (fun h => hne (h.symm.trans hf)), List.append_nil]
    refine (List.map_congr_left fun t ht => if_neg fun hid => ?_).trans (List.map_id' _)
    obtain ⟨hmem, htf⟩ := AuthDb.mem_family.1 ht
    rw [Table.eq_of_clash hmem hrow (RefreshToken.clash_iff.2 (.inl hid))] at htf
    exact hne htf.symm

theorem AuthDb.chained_exchange {time : Time} {older : List RefreshToken} (hc : db.Chained f)
    (hfamily : db.family f = older ++ [row])
    (hfamily' : db'.family f = older ++ [row.exchanged new time, new])
    (hu : new.userId = row.userId) (hn : new.rotatedTo = none) :
    db'.Chained f := by
  have howner := hc.owner
  have hlinks := hc.links
  rw [hfamily] at howner hlinks
  have hmem : ∀ a ∈ db'.family f, a.userId = row.userId := by
    intro a ha
    rw [hfamily', List.mem_append, List.mem_pair] at ha
    rcases ha with ha | rfl | rfl
    · exact howner a (List.mem_append_left _ ha) row (by simp)
    · rfl
    · exact hu
  refine ⟨fun a ha b hb => (hmem a ha).trans (hmem b hb).symm, ?_, ?_⟩
  · rw [hfamily', List.isChain_append_cons_cons]
    rw [List.isChain_append] at hlinks
    refine ⟨?_, ⟨rfl, rfl⟩, List.isChain_singleton _⟩
    exact List.isChain_append.2
      ⟨hlinks.1, List.isChain_singleton _, by simpa [RefreshToken.exchanged] using hlinks.2.2⟩
  · rw [hfamily']
    simpa using hn

/-! ### One call -/

/-- The ids handed out do not go back. -/
def World.SupplyLe {X : Type} (w w' : World X) : Prop := w.supply ≤ w'.supply

theorem World.SupplyLe.refl {X : Type} (w : World X) : w.SupplyLe w := le_refl _

theorem World.SupplyLe.trans {X : Type} (a b c : World X) (h : a.SupplyLe b) (h' : b.SupplyLe c) :
    a.SupplyLe c := Nat.le_trans h h'

theorem AuthRely.ofEq : AuthRely (· = ·) := ⟨fun _ => rfl, fun _ _ _ => Eq.trans, fun h => h ▸ .refl _⟩

theorem authAlone (cfg : Config) : Relies (AuthRequest.prog cfg) (fun _ => True)
    (fun _ _ => (· = ·)) AuthOp.Own fun r a w db =>
    r.Writes cfg a w db ∧ ∀ h, r.exchangedHash cfg = some h → ∃ t ∈ db.refreshTokens.rows,
        t.tokenHash = h ∧ t.revokedAt = none where
  refl _ _ _ := rfl
  trans _ _ _ _ _ := Eq.trans
  check := (authBounded cfg).check
  stable := (authBounded cfg).stable
  safe r db _ := by
    refine Prog.Safe.commit (fun _ => rfl) (fun _ _ _ => Eq.trans)
      ((r.prog_safe .ofEq db).mono fun a d w db' h => ⟨h.1, fun hash he => ?_⟩)
    obtain ⟨db₁, stored, -, rfl, hm, hhash, hrev⟩ := h.2 hash he
    exact ⟨stored, hm, hhash, hrev⟩

/-- Nothing was written, and ids may have been handed out. -/
structure Passed (s s' : Session authTables.backend) : Prop where
  db : s'.db = s.db
  dirty : s'.dirty = s.dirty
  supply : s.world.SupplyLe s'.world

section
variable {α : Type} {p : Auth α} {s s' s'' : Session authTables.backend}

theorem Passed.trans (h : Passed s s') (h' : Passed s' s'') : Passed s s'' :=
  ⟨h'.db.trans h.db, h'.dirty.trans h.dirty, h.supply.trans _ _ _ h'.supply⟩

theorem passed_of_reads (h : p.Reads World.SupplyLe) (s : Session authTables.backend) :
    p.Ends (fun _ => Passed s) (fun _ _ => True) s :=
  (h.ends World.SupplyLe.refl World.SupplyLe.trans s).mono
    (fun _ _ ⟨hdb, hdirty, hw⟩ => ⟨hdb, hdirty, hw⟩) fun _ _ _ => trivial

theorem supplyLe_random : (random : Auth String).Reads World.SupplyLe :=
  Prog.reads_ask fun _ _ => le_refl _

theorem supplyLe_now : (now : Auth Time).Reads World.SupplyLe := Prog.reads_ask fun _ _ => le_refl _

theorem supplyLe_uuid4 : (uuid4 : Auth Uuid).Reads World.SupplyLe :=
  Prog.reads_ask fun _ _ => Nat.le_succ_of_le (Nat.le_max_left _ _)

theorem AuthThrottle.check_reads (cfg : Config) (identity : String) :
    (AuthThrottle.check cfg identity).Reads World.SupplyLe := by
  unfold AuthThrottle.check redisIncr redisExpire redisTtl
  refine Prog.Reads.bind (Prog.reads_ask fun _ _ => le_refl _) fun n => ?_
  repeat' first
    | exact Prog.reads_ask fun _ _ => le_refl _
    | refine Prog.Reads.bind ?_ fun _ => ?_
    | split
    | trivial

theorem AuthService.authenticate_ends (cfg : Config) (email password : String)
    (s : Session authTables.backend) :
    (AuthService.authenticate cfg email password).Ends
      (fun user s' => s.db.hasUser user.id = true ∧ ∃ ops, (∀ o ∈ ops, AuthOp.AddsNone o) ∧
      Passed { s with dirty := s.dirty ++ ops } s') (fun _ _ => True) s := by
  unfold AuthService.authenticate AuthService.hashPassword
  refine Prog.ends_query_bind ?_
  cases hone : s.db.users.one fun u => u.email == cfg.lower (cfg.lower email) with
  | none => trivial
  | some user =>
    have huser : s.db.hasUser user.id = true :=
      List.any_eq_true.2 ⟨user, Table.mem_of_one hone, beq_self_eq_true _⟩
    dsimp only
    split
    · trivial
    split
    · trivial
    split
    · rw [Prog.bind_assoc']
      refine (passed_of_reads supplyLe_random s).bind fun salt s₁ h₁ => Prog.ends_set_bind ?_
      refine ⟨huser, [.setPasswordHash user.id (cfg.hashPassword salt password)],
        by simp [AuthOp.AddsNone], h₁.db, ?_, h₁.supply⟩
      rw [h₁.dirty]
    · exact ⟨huser, [], by simp, rfl, by simp, le_refl _⟩

/-- A new token in a new family. -/
structure AuthService.Starts (cfg : Config) (s : Session authTables.backend) (userId : Uuid)
    (t : IssuedTokens) (new : RefreshToken) (s' : Session authTables.backend) : Prop where
  userId : new.userId = userId
  tokenHash : new.tokenHash = cfg.hashToken t.refreshToken
  rotatedTo : new.rotatedTo = none
  notBefore : s.world.supply ≤ new.familyId
  before : new.familyId < s'.world.supply
  flushed : flushAll authTables.backend (s.dirty ++ [.addToken new]) s.db = .ok s'.db
  clean : s'.dirty = []

theorem AuthService.issueTokens_ends (cfg : Config) (user : User) (s : Session authTables.backend) :
    (AuthService.issueTokens cfg user none).Ends
        (fun t s' => ∃ new, AuthService.Starts cfg s user.id t new s') (fun _ _ => True) s := by
  have family : ∀ s₀ : Session authTables.backend,
      (AuthService.familyOrNew none).Ends
          (fun f s' => s₀.world.supply ≤ f ∧ f < s'.world.supply ∧ Passed s₀ s')
              (fun _ _ => True) s₀ :=
    fun s₀ => ⟨Nat.le_max_left _ _, Nat.lt_succ_self _, rfl, rfl,
      Nat.le_succ_of_le (Nat.le_max_left _ _)⟩
  unfold AuthService.issueTokens RefreshTokenRepository.add
  refine (passed_of_reads supplyLe_random s).bind
    fun raw s₁ h₁ => (family s₁).bind fun f s₂ ⟨hle, hlt, h₂⟩ => ?_
  refine (passed_of_reads supplyLe_now s₂).bind
    fun time s₃ h₃ => (passed_of_reads supplyLe_uuid4 s₃).bind fun id s₄ h₄ => ?_
  have h := ((h₁.trans h₂).trans h₃).trans h₄
  rw [Prog.bind_assoc']
  refine Prog.ends_set_bind
    (Prog.ends_flush_bind (fun db hflush => Prog.ends_query_bind ?_) fun _ _ => trivial)
  refine (passed_of_reads supplyLe_now _).bind
    fun time' s₅ h₅ => (passed_of_reads supplyLe_uuid4 s₅).bind fun jti s₆ h₆ => ?_
  have h' := h₅.trans h₆
  refine ⟨⟨id, user.id, f, cfg.hashToken raw, time + cfg.refreshTokenTtlSeconds * second, none,
    none⟩, rfl, rfl, rfl, ?_, ?_, ?_, h'.dirty⟩
  · exact Nat.le_trans h₁.supply hle
  · exact hlt.trans_le ((h₃.trans h₄).supply.trans _ _ _ h'.supply)
  · rw [h'.db, ← h.db, ← h.dirty]
    exact hflush

end

section
variable {s : AuthState} {c : AuthCall} {a : AuthAnswer}

theorem supplyLe_effects : AuthEffects World.SupplyLe where
  now := Prog.within_ask fun _ _ => Nat.le_refl _
  uuid4 := Prog.within_ask fun _ _ => Nat.le_succ_of_le (Nat.le_max_left _ _)
  random := Prog.within_ask fun _ _ => Nat.le_refl _
  redisIncr _ := Prog.within_ask fun _ _ => Nat.le_refl _
  redisExpire _ _ := Prog.within_ask fun _ _ => Nat.le_refl _
  redisTtl _ := Prog.within_ask fun _ _ => Nat.le_refl _
  sendEmail _ := Prog.within_ask fun _ _ => Nat.le_refl _

theorem call_supply (s : AuthState) (c : AuthCall) : s.world.supply ≤ (s.call cfg c).world.supply :=
  scope_world World.SupplyLe.refl World.SupplyLe.trans (supplyLe_effects.prog c.req) c.envs s

/-- A login adds a token in a new family to what it makes of the other rows. -/
theorem login_call {ip email password : String} (hreq : c.req = .login ip email password)
    (hok : s.answer cfg c = .ok a) :
    ∃ t new ops, a = .tokens t ∧ new.tokenHash = cfg.hashToken t.refreshToken ∧ new.rotatedTo = none ∧
      s.world.supply ≤ new.familyId ∧ new.familyId < (s.call cfg c).world.supply ∧
        (∀ o ∈ ops, AuthOp.AddsNone o) ∧
      (applyAll authTables.backend ops s.db).hasUser new.userId = true ∧
        (applyAll authTables.backend ops s.db).refreshTokens.admits new = true ∧
      (s.call cfg c).db = (AuthOp.addToken new).apply (applyAll authTables.backend ops s.db) := by
  have hends : (c.req.prog cfg).Ends
      (fun a s' => ∃ t new ops userId s₀, a = .tokens t ∧ (∀ o ∈ ops, AuthOp.AddsNone o) ∧
      Passed ⟨s.db, ops, s.world, c.envs⟩ s₀ ∧ AuthService.Starts cfg s₀ userId t new s')
          (fun _ _ => True) ⟨s.db, [], s.world, c.envs⟩ := by
    rw [hreq]
    refine (passed_of_reads (AuthThrottle.check_reads cfg _) _).bind fun _ s₁ h₁ => ?_
    refine (AuthService.authenticate_ends cfg email password s₁).bind
      fun user s₂ ⟨_, ops, hops, h₂⟩ => ?_
    refine (AuthService.issueTokens_ends cfg user s₂).bind fun t s₃ ⟨new, h₃⟩ => ?_
    refine ⟨t, new, ops, user.id, s₂, rfl, hops,
      ⟨h₂.db.trans h₁.db, ?_, h₁.supply.trans _ _ _ h₂.supply⟩, h₃⟩
    rw [h₂.dirty, h₁.dirty, List.nil_append]
  rcases hends.scope with
    ⟨a', s', db, ⟨t, new, ops, userId, s₀, rfl, hops, h₀, hstarts⟩, hflush, hscope⟩
      | ⟨e, s', -, hscope⟩
  · rw [AuthState.answer, hscope] at hok
    cases hok
    rw [hstarts.clean] at hflush
    cases hflush
    have hflushed := hstarts.flushed
    rw [h₀.dirty, h₀.db] at hflushed
    obtain ⟨hcheck, hdb⟩ := flushAll_concat hflushed
    have hcall : s.call cfg c = ⟨s'.db, s'.world⟩ := congrArg Prod.snd hscope
    have hadmits : (applyAll authTables.backend ops s.db).hasUser new.userId = true ∧
        (applyAll authTables.backend ops s.db).refreshTokens.admits new = true := by
          simpa [AuthOp.check] using hcheck
    exact ⟨t, new, ops, rfl, hstarts.tokenHash, hstarts.rotatedTo,
      Nat.le_trans h₀.supply hstarts.notBefore,
      by rw [hcall]; exact hstarts.before, hops, hadmits.1, hadmits.2, by rw [hcall]; exact hdb⟩
  · rw [AuthState.answer, hscope] at hok
    cases hok

/-- The families are chains, and ids that were not handed out name none. -/
structure AuthState.Families (s : AuthState) : Prop where
  chained : ∀ f, s.db.Chained f
  issued : ∀ f, s.world.supply ≤ f → s.db.family f = []

/-- What a login and a refresh do to the families. -/
structure AuthState.Respects (cfg : Config) (s : AuthState) (c : AuthCall) : Prop where
  login : ∀ ip email password tokens, c.req = .login ip email password →
    s.answer cfg c = .ok (.tokens tokens) →
    ∃ new : RefreshToken, new.tokenHash = cfg.hashToken tokens.refreshToken ∧
      s.db.family new.familyId = [] ∧
      (s.call cfg c).db.family new.familyId = [new]
  refresh : ∀ payload cookie tokens, c.req = .refresh payload cookie →
    s.answer cfg c = .ok (.tokens tokens) →
    ∃ raw older time, ∃ row new : RefreshToken, presented payload cookie = some raw ∧
      row.tokenHash = cfg.hashToken raw ∧
      new.tokenHash = cfg.hashToken tokens.refreshToken ∧ s.db.family row.familyId = older ++ [row] ∧
      (s.call cfg c).db.family row.familyId = older ++ [row.exchanged new time, new] ∧
      ∀ f, f ≠ row.familyId → (s.call cfg c).db.family f = s.db.family f

theorem AuthState.Families.refresh_call {payload cookie : Option String} (h : s.Families)
    (hreq : c.req = .refresh payload cookie)
    (hok : s.answer cfg c = .ok a) : ∃ raw t older time, ∃ row new : RefreshToken, a = .tokens t ∧
      presented payload cookie = some raw ∧
      row.tokenHash = cfg.hashToken raw ∧ new.tokenHash = cfg.hashToken t.refreshToken ∧
        new.userId = row.userId ∧ new.rotatedTo = none ∧
      s.db.family row.familyId = older ++ [row] ∧ (s.call cfg c).db.family row.familyId = older ++
        [row.exchanged new time, new] ∧
      ∀ f, f ≠ row.familyId → (s.call cfg c).db.family f = s.db.family f := by
  obtain ⟨w, hw, hwrites, hactive⟩ := (authAlone cfg).of_scope trivial hok
  rw [hreq] at hwrites hactive
  obtain ⟨raw, t, hraw, rfl, row, hrow, hhash, new, time, hissues, hfam, rfl⟩ := hwrites
  obtain ⟨row', hrow', hhash', hrev⟩ :=
    hactive (cfg.hashToken raw) (by rw [AuthRequest.exchangedHash, hraw, Option.map_some])
  obtain rfl := Table.eq_of_clash hrow hrow' (RefreshToken.clash_iff.2 (.inr (hhash.trans hhash'.symm)))
  obtain ⟨older, hfamily⟩ := (h.chained row.familyId).active_last hrow hrev
  obtain ⟨hfamily', hothers⟩ :=
    @AuthDb.families_exchange _ _ _ time _ hrow hfamily (hissues.userId ▸ hissues.hasUser)
      hissues.admits hfam
  rw [← hw] at hfamily'
  exact ⟨raw, t, older, time, row, new, rfl, hraw, hhash, hissues.tokenHash, hissues.userId,
    hissues.rotatedTo, hfamily, hfamily',
    fun f hne => (congrArg (AuthDb.family · f) hw).trans (hothers f hne)⟩

theorem AuthState.Families.call (h : s.Families) (c : AuthCall) : (s.call cfg c).Families := by
  have hsupply := @call_supply cfg s c
  cases hok : s.answer cfg c with
  | error e =>
    have hdb : (s.call cfg c).db = s.db := scope_error hok
    exact ⟨fun f => hdb ▸ h.chained f, fun f hf => hdb ▸ h.issued f (hsupply.trans hf)⟩
  | ok a =>
    obtain ⟨w, hw, hwrites, -⟩ := (authAlone cfg).of_scope trivial hok
    have others : (∀ o ∈ w, AuthOp.AddsNone o) → (s.call cfg c).Families := by
      intro hnone
      change (s.call cfg c).db = _ at hw
      refine ⟨fun f => ?_, fun f hf => ?_⟩ <;> rw [hw]
      · exact AuthDb.chained_applyAll hnone (h.chained f)
      · exact AuthDb.family_nil_applyAll hnone (h.issued f (hsupply.trans hf))
    cases hreq : c.req with
    | login ip email password =>
      obtain ⟨t, new, ops, -, -, hrot, hle, hlt, hops, hu, ha, hdb⟩ := login_call hreq hok
      have hstart := AuthDb.family_nil_applyAll hops (h.issued new.familyId hle)
      have hfamily : ∀ f, (s.call cfg c).db.family f =
          (applyAll authTables.backend ops s.db).family f ++
          if new.familyId = f then [new] else [] := fun f => hdb ▸ AuthDb.family_addToken hu ha
      refine ⟨fun f => ?_, fun f hf => ?_⟩
      · by_cases hf : new.familyId = f
        · subst hf
          exact AuthDb.chained_singleton (by rw [hfamily, hstart, if_pos rfl]; rfl) hrot
        · exact (AuthDb.chained_applyAll hops (h.chained f)).congr
            (by rw [hfamily, if_neg hf, List.append_nil])
      · rw [hfamily, AuthDb.family_nil_applyAll hops (h.issued f (hsupply.trans hf)),
          if_neg (hlt.trans_le hf).ne]
        rfl
    | refresh payload cookie =>
      obtain ⟨raw, t, older, time, row, new, -, -, -, -, huser, hrot, hfamily, hfamily', hothers⟩ :=
        h.refresh_call hreq hok
      refine ⟨fun f => ?_, fun f hf => ?_⟩
      · by_cases hf : f = row.familyId
        · subst hf
          exact AuthDb.chained_exchange (h.chained _) hfamily hfamily' huser hrot
        · exact (h.chained f).congr (hothers f hf)
      · have hne : f ≠ row.familyId := by
          rintro rfl
          rw [h.issued _ (hsupply.trans hf)] at hfamily
          simp at hfamily
        rw [hothers f hne]
        exact h.issued f (hsupply.trans hf)
    | register email password fullName =>
      rw [hreq] at hwrites
      exact others hwrites
    | logout payload cookie =>
      rw [hreq] at hwrites
      exact others hwrites
    | verifyEmail token =>
      rw [hreq] at hwrites
      exact others hwrites
    | requestPasswordReset clientIp email =>
      rw [hreq] at hwrites
      exact others hwrites
    | confirmPasswordReset token newPassword =>
      rw [hreq] at hwrites
      exact others hwrites

theorem AuthState.Families.respects (h : s.Families) (c : AuthCall) : s.Respects cfg c := by
  refine ⟨fun ip email password tokens hreq hok => ?_, fun payload cookie tokens hreq hok => ?_⟩
  · obtain ⟨t, new, ops, heq, hhash, -, hle, -, hops, hu, ha, hdb⟩ := login_call hreq hok
    cases heq
    refine ⟨new, hhash, h.issued _ hle, ?_⟩
    rw [hdb, AuthDb.family_addToken hu ha, AuthDb.family_nil_applyAll hops (h.issued _ hle), if_pos rfl]
    rfl
  · obtain ⟨raw, t, older, time, row, new, heq, hraw, hhash, hhash', -, -, hfamily⟩ :=
      h.refresh_call hreq hok
    cases heq
    exact ⟨raw, older, time, row, new, hraw, hhash, hhash', hfamily⟩

theorem AuthState.Families.run (cfg : Config) (h : s.Families) (calls : List AuthCall) :
    (Kit.run (AuthState.call cfg) s calls).Families := by
  induction calls generalizing s with
  | nil => exact h
  | cons c calls ih => exact ih (h.call c)

end

/-- In every state of every run of calls, the tokens of a family are one user's and a chain of
exchanges that begins with the token of a login, of which only the newest can be active; a refresh
that succeeds appends to the chain of its token and touches no other family, and a revoked token
stays revoked. -/
theorem refresh_families (cfg : Config) (users : Table User) (roles : Table Role)
    (members : Table OrganizationMember) (world : World (List EmailMessage))
    (calls : List AuthCall) :
    let s := run (AuthState.call cfg) ⟨.initial users roles members, world⟩ calls
    (∀ f, s.db.Chained f) ∧ (∀ c, s.Respects cfg c) ∧
      ∀ calls', ∀ t ∈ s.db.refreshTokens.rows, t.revokedAt.isSome →
        ∀ t' ∈ (run (AuthState.call cfg) s calls').db.refreshTokens.rows,
          t'.id = t.id → t'.revokedAt.isSome := by
  have hinit : AuthState.Families ⟨.initial users roles members, world⟩ :=
    ⟨fun f => AuthDb.chained_nil rfl, fun f _ => rfl⟩
  have hs := AuthState.Families.run cfg hinit calls
  refine ⟨hs.chained, fun c => hs.respects c, fun calls' t ht hrev t' ht' hid => ?_⟩
  obtain ⟨t₁, ht₁, hevolves⟩ := (run_grows _ calls').tokens t ht
  rw [Table.eq_of_clash ht' ht₁ (RefreshToken.clash_iff.2 (.inl (hid.trans hevolves.id.symm)))]
  exact hevolves.revoked hrev

end TrafficPlatform
