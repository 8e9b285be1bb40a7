import TrafficPlatform.Management.Rotation
import TrafficPlatform.Kit.Run

/-!
# The trail of rotations

Runs of key operations, one after another. A step changes the trail in one of three ways: not at
all, by a key that points nowhere, or by such a key and its predecessor that now points to it. A key
that is rotated again leaves its first successor without a predecessor.
-/

namespace TrafficPlatform
open Kit ApiKeys

/-- A call of `ApiKeyService`, or what happens elsewhere, where no key is written. -/
inductive KeyOperation
  | createKey (organizationId apiId : Uuid) (name : String) (expiresInDays : Option Nat)
    (createdByUserId : Option Uuid)
  | revokeKey (organizationId apiId keyId : Uuid)
  | rotateKey (organizationId apiId keyId : Uuid) (gracePeriodHours : Nat)
    (createdByUserId : Option Uuid)
  | elsewhere (state : State platformTables.backend)

structure KeyEvent where
  operation : KeyOperation
  envs : Nat → Env PlatformInput

/-- The state, and the rotations that returned: the key that was replaced and the key that was
issued. -/
structure KeyTrail where
  state : State platformTables.backend
  rotations : List (Uuid × Uuid)

namespace KeyTrail

def next (cfg : Config) (t : KeyTrail) (e : KeyEvent) : KeyTrail :=
  match e.operation with
  | .createKey organizationId apiId name expiresInDays createdByUserId =>
    ⟨(scope (ApiKeyService.createKey cfg organizationId apiId name expiresInDays createdByUserId)
      e.envs t.state).2, t.rotations⟩
  | .revokeKey organizationId apiId keyId =>
    ⟨(scope (ApiKeyService.revokeKey organizationId apiId keyId) e.envs t.state).2, t.rotations⟩
  | .rotateKey organizationId apiId keyId gracePeriodHours createdByUserId =>
    match scope (ApiKeyService.rotateKey cfg organizationId apiId keyId gracePeriodHours
        createdByUserId) e.envs t.state with
    | (.ok issued, s) => ⟨s, (keyId, issued.1.id) :: t.rotations⟩
    | (.error _, s) => ⟨s, t.rotations⟩
  | .elsewhere s =>
    if s.db.apiKeys.rows = t.state.db.apiKeys.rows ∧ t.state.world.supply ≤ s.world.supply then
      ⟨s, t.rotations⟩ else t

/-- The key is there, with that `rotated_to`. -/
def Points (t : KeyTrail) (id : Uuid) (rotatedTo : Option Uuid) : Prop :=
  ∃ k ∈ t.state.db.apiKeys.rows, k.id = id ∧ k.rotatedTo = rotatedTo

/-- The `rotated_to` of a key. -/
def successor (t : KeyTrail) (id : Uuid) : Option Uuid :=
  (t.state.db.apiKeys.one fun k => k.id == id).bind (·.rotatedTo)

/-- Each key issued by a rotation is the `rotated_to` of the key that it replaced and of no other,
and no key was replaced twice. -/
structure Complete (t : KeyTrail) : Prop where
  points : ∀ r ∈ t.rotations, ∀ id, t.Points id (some r.2) ↔ id = r.1
  once : (t.rotations.map Prod.fst).Nodup

/-- Following `rotated_to` from any key terminates. -/
def Terminates (t : KeyTrail) : Prop := ∀ id, ∃ n, follow t.successor n id = none

/-- The event rotates the key: it is the API's, and not revoked. -/
def Rotates (t : KeyTrail) (e : KeyEvent) (old : ApiKey) : Prop :=
  match e.operation with
  | .rotateKey _ apiId keyId _ _ => t.state.db.KeyOf apiId keyId old ∧ old.revokedAt = none
  | _ => False

/-- A key is rotated that points to another one already. -/
def RotatesAgain (t : KeyTrail) (e : KeyEvent) : Prop :=
  ∃ old ∈ t.state.db.apiKeys.rows, t.Rotates e old ∧ old.rotatedTo.isSome = true

instance (t : KeyTrail) (e : KeyEvent) (old : ApiKey) : Decidable (t.Rotates e old) :=
  match e with
  | ⟨.rotateKey _ apiId keyId _ _, _⟩ =>
    inferInstanceAs
      (Decidable ((old ∈ t.state.db.apiKeys.rows ∧ old.id = keyId ∧ old.apiId = apiId) ∧
        old.revokedAt = none))
  | ⟨.createKey .., _⟩ => .isFalse id
  | ⟨.revokeKey .., _⟩ => .isFalse id
  | ⟨.elsewhere _, _⟩ => .isFalse id

instance (t : KeyTrail) (e : KeyEvent) : Decidable (t.RotatesAgain e) :=
  inferInstanceAs
    (Decidable (∃ old ∈ t.state.db.apiKeys.rows, t.Rotates e old ∧ old.rotatedTo.isSome = true))

variable {cfg : Config} {t t' : KeyTrail} {e : KeyEvent}

theorem Points.eq {id : Uuid} {p p' : Option Uuid} (h : t.Points id p) (h' : t.Points id p') :
    p = p' := by
  obtain ⟨k, hk, hid, rfl⟩ := h
  obtain ⟨k', hk', hid', rfl⟩ := h'
  rw [Table.eq_of_clash hk hk' (ApiKey.clash_iff.2 (.inl (hid.trans hid'.symm)))]

theorem points_of_successor {id next : Uuid} (h : t.successor id = some next) :
    t.Points id (some next) := by
  obtain ⟨k, hone, hnext⟩ := Option.bind_eq_some_iff.1 h
  exact ⟨k, Table.mem_of_one hone, by simpa using Table.pred_of_one hone, hnext⟩

/-! ### Steps -/

/-- What a step does to the trail. -/
inductive Steps (t : KeyTrail) (e : KeyEvent) (t' : KeyTrail) : Prop
  | kept (hsupply : t.state.world.supply ≤ t'.state.world.supply)
    (hpoints : ∀ id p, t'.Points id p ↔ t.Points id p)
    (hrotations : t'.rotations = t.rotations)
  | issued (new : Uuid) (hnew : t.state.world.Issues t'.state.world new)
    (hpoints : ∀ id p, t'.Points id p ↔ t.Points id p ∨ id = new ∧ p = none)
      (hrotations : t'.rotations = t.rotations)
  | rotated (old : ApiKey) (new : Uuid) (hnew : t.state.world.Issues t'.state.world new)
    (hold : t.Rotates e old)
    (hpoints : ∀ id p, t'.Points id p ↔ t.Points id p ∧ id ≠ old.id ∨ id = new ∧ p = none ∨
      id = old.id ∧ p = some new)
    (hrotations : t'.rotations = (old.id, new) :: t.rotations)

theorem Rotates.mem {old : ApiKey} (h : t.Rotates e old) : old ∈ t.state.db.apiKeys.rows := by
  unfold Rotates at h
  split at h
  · exact h.1.1
  · exact h.elim

theorem Rotates.eq {old old' : ApiKey} (h : t.Rotates e old) (h' : t.Rotates e old') : old = old' := by
  obtain ⟨operation, envs⟩ := e
  cases operation with
  | rotateKey =>
    exact Table.eq_of_clash h.1.1 h'.1.1 (ApiKey.clash_iff.2 (.inl (h.1.2.1.trans h'.1.2.1.symm)))
  | createKey => exact h.elim
  | revokeKey => exact h.elim
  | elsewhere => exact h.elim

theorem grown_createKey (organizationId apiId : Uuid) (name : String) (expiresInDays : Option Nat)
    (createdByUserId : Option Uuid) :
    (ApiKeyService.createKey cfg organizationId apiId name expiresInDays createdByUserId).Within
        World.Grown := by
  unfold ApiKeyService.createKey ApiCatalogService.getApi ApiRepository.getInOrg generateApiKey
    ApiKeyRepository.add
  repeat' first
    | exact grown_uuid4
    | exact grown_now
    | exact grown_random
    | refine Prog.Within.bind ?_ fun _ => ?_
    | split
    | simp

theorem grown_getKey (organizationId apiId keyId : Uuid) :
    (ApiKeyService.getKey organizationId apiId keyId).Within World.Grown := by
  unfold ApiKeyService.getKey ApiCatalogService.getApi ApiRepository.getInOrg ApiKeyRepository.getInApi
  repeat' first
    | refine Prog.Within.bind ?_ fun _ => ?_
    | split
    | simp

theorem grown_revokeKey (organizationId apiId keyId : Uuid) :
    (ApiKeyService.revokeKey organizationId apiId keyId).Within World.Grown := by
  refine (grown_getKey _ _ _).bind fun key => ?_
  split
  · exact grown_now.bind fun _ => Prog.Within.bind (Prog.within_set _) fun _ => Prog.within_flushSession
  · exact Prog.within_flushSession

theorem grown_rotateKey (organizationId apiId keyId : Uuid) (gracePeriodHours : Nat)
    (createdByUserId : Option Uuid) :
    (ApiKeyService.rotateKey cfg organizationId apiId keyId gracePeriodHours createdByUserId).Within
        World.Grown := by
  refine (grown_getKey _ _ _).bind fun old => ?_
  split
  · trivial
  · refine (grown_createKey _ _ _ _ _).bind fun issued => grown_now.bind fun time => ?_
    exact Prog.Within.bind (Prog.within_set _)
      fun _ => Prog.Within.bind Prog.within_flushSession fun _ => trivial

theorem scope_call {α : Type} {p : Platform α} {Q : α → Session platformTables.backend → Prop}
    {envs : Nat → Env PlatformInput} {s : State platformTables.backend}
    (hgrown : p.Within World.Grown) (h : p.Ends Q (fun _ _ => True) ⟨s.db, [], s.world, envs⟩)
    (hd : ∀ a s', Q a s' → s'.dirty = []) :
      (∃ a s', Q a s' ∧ scope p envs s = (.ok a, ⟨s'.db, s'.world⟩)) ∨
      ∃ e w, s.world.Grown w ∧ scope p envs s = (.error e, ⟨s.db, w⟩) := by
  have hworld := hgrown.ends World.Grown.refl World.Grown.trans ⟨s.db, [], s.world, envs⟩
  rcases (hworld.and h).scope_flushed fun a s' hq => hd a s' hq.2 with ⟨a, s', hq, hs⟩ | ⟨e, s', hq, hs⟩
  · exact .inl ⟨a, s', hq.2, hs⟩
  · exact .inr ⟨e, s'.world, hq.1, hs⟩

theorem steps_same {w : World PlatformOutside} (h : t.state.world.supply ≤ w.supply) :
    t.Steps e ⟨⟨t.state.db, w⟩, t.rotations⟩ :=
  .kept h (fun _ _ => Iff.rfl) rfl

theorem points_add {new : ApiKey} {w : World PlatformOutside} {log : List (Uuid × Uuid)}
    (hnew : (PlatformOp.addApiKey new).check t.state.db = .ok ()) (hnone : new.rotatedTo = none)
    (id : Uuid) (p : Option Uuid) :
    Points ⟨⟨t.state.db.addApiKey new, w⟩, log⟩ id p ↔ t.Points id p ∨ id = new.id ∧ p = none := by
  have hmem : ∀ k, k ∈ (t.state.db.addApiKey new).apiKeys.rows ↔
      k ∈ t.state.db.apiKeys.rows ∨ k = new :=
    fun k => mem_apiKeys_add hnew
  constructor
  · rintro ⟨k, hk, rfl, rfl⟩
    rcases (hmem k).1 hk with hk | rfl
    · exact .inl ⟨k, hk, rfl, rfl⟩
    · exact .inr ⟨rfl, hnone⟩
  · rintro (⟨k, hk, rfl, rfl⟩ | ⟨rfl, rfl⟩)
    · exact ⟨k, (hmem k).2 (.inl hk), rfl, rfl⟩
    · exact ⟨new, (hmem new).2 (.inr rfl), rfl, hnone⟩

theorem points_change {keyId : Uuid} {c : ApiKeyChange} {w : World PlatformOutside}
    {log : List (Uuid × Uuid)} (id : Uuid)
    (p : Option Uuid) : Points ⟨⟨t.state.db.changeApiKey keyId c, w⟩, log⟩ id p ↔
      ∃ p₀, t.Points id p₀ ∧ (if id = keyId then c.rotatedTo <|> p₀ else p₀) = p := by
  have hmem : ∀ k, k ∈ (t.state.db.changeApiKey keyId c).apiKeys.rows ↔
      ∃ k₀ ∈ t.state.db.apiKeys.rows, (if k₀.id == keyId then k₀.changed c else k₀) = k := fun k => by
    rw [PlatformDb.changeApiKey, Table.mem_update]
  constructor
  · rintro ⟨k, hk, rfl, rfl⟩
    obtain ⟨k₀, hk₀, rfl⟩ := (hmem k).1 hk
    refine ⟨k₀.rotatedTo, ⟨k₀, hk₀, ?_, rfl⟩, ?_⟩
    · split <;> rfl
    · by_cases hid : k₀.id = keyId <;> simp [hid, ApiKey.changed]
  · rintro ⟨_, ⟨k₀, hk₀, rfl, rfl⟩, rfl⟩
    refine ⟨_, (hmem _).2 ⟨k₀, hk₀, rfl⟩, ?_, ?_⟩
    · split <;> rfl
    · by_cases hid : k₀.id = keyId <;> simp [hid, ApiKey.changed]

theorem rotatedTo_grace (old : ApiKey) (gracePeriodHours : Nat) (newId : Uuid) (time : Time) :
    (ApiKeyService.grace old gracePeriodHours newId time).rotatedTo = some newId := by
  unfold ApiKeyService.grace
  dsimp only
  split
  · rfl
  · split <;> rfl

theorem points_rotate {new old : ApiKey} {w : World PlatformOutside} {log : List (Uuid × Uuid)}
    {gracePeriodHours : Nat} {time : Time}
    (hnew : (PlatformOp.addApiKey new).check t.state.db = .ok ()) (hnone : new.rotatedTo = none)
    (hold : old ∈ t.state.db.apiKeys.rows) (id : Uuid) (p : Option Uuid) :
    Points ⟨⟨(t.state.db.addApiKey new).changeApiKey old.id
      (ApiKeyService.grace old gracePeriodHours new.id time), w⟩, log⟩ id p ↔
      t.Points id p ∧ id ≠ old.id ∨ id = new.id ∧ p = none ∨ id = old.id ∧ p = some new.id := by
  have hadmits := (insertCheck_eq_ok.1 hnew).2
  rw [Bool.and_eq_true] at hadmits
  have hne : new.id ≠ old.id :=
    fun h => Table.admits_iff.1 hadmits.2 old hold (ApiKey.clash_iff.2 (.inl h.symm))
  rw [points_change (t := ⟨⟨t.state.db.addApiKey new, w⟩, log⟩), rotatedTo_grace]
  simp only [points_add hnew hnone]
  by_cases hid : id = old.id
  · simp only [if_pos hid]
    constructor
    · rintro ⟨p₀, -, rfl⟩
      exact .inr (.inr ⟨hid, rfl⟩)
    · rintro (⟨-, h⟩ | ⟨h, -⟩ | ⟨-, rfl⟩)
      · exact absurd hid h
      · exact absurd (h.symm.trans hid) hne
      · exact ⟨old.rotatedTo, .inl ⟨old, hold, hid.symm, rfl⟩, rfl⟩
  · simp only [if_neg hid, exists_eq_right]
    tauto

theorem steps (cfg : Config) (t : KeyTrail) (e : KeyEvent) : t.Steps e (t.next cfg e) := by
  obtain ⟨operation, envs⟩ := e
  cases operation with
  | createKey organizationId apiId name expiresInDays createdByUserId =>
    have hends :=
      @createKey_ends cfg ⟨t.state.db, [], t.state.world, envs⟩ organizationId apiId name
        expiresInDays
      createdByUserId rfl
    unfold next
    rcases scope_call (grown_createKey _ _ _ _ _) hends (fun a s' h => h.2.2.dirty) with
      ⟨issued, s', ⟨hissues, -, hreach⟩, hs⟩ | ⟨err, w, hw, hs⟩
    · dsimp only
      rw [hs, hreach.db]
      exact .issued issued.1.id hissues.id (points_add hissues.admitted hissues.rotatedTo) rfl
    · dsimp only
      rw [hs]
      exact steps_same hw.supply
  | revokeKey organizationId apiId keyId =>
    have hends :=
      revokeKey_ends (s := ⟨t.state.db, [], t.state.world, envs⟩) organizationId apiId keyId rfl
    unfold next
    rcases scope_call (grown_revokeKey _ _ _) hends (fun a s' h => by
        obtain ⟨-, key, -, ⟨-, h⟩ | ⟨-, time, h⟩⟩ := h <;> exact h.dirty) with
      ⟨u, s', ⟨-, key, -, ⟨-, hreach⟩ | ⟨-, time, hreach⟩⟩, hs⟩ | ⟨err, w, hw, hs⟩
    · dsimp only
      rw [hs, hreach.db]
      exact steps_same hreach.world.supply
    · dsimp only
      rw [hs, hreach.db]
      refine .kept hreach.world.supply (fun id p => (points_change id p).trans ?_) rfl
      simp
    · dsimp only
      rw [hs]
      exact steps_same hw.supply
  | rotateKey organizationId apiId keyId gracePeriodHours createdByUserId =>
    have hends := @rotateKey_ends cfg ⟨t.state.db, [], t.state.world, envs⟩ organizationId apiId keyId
      gracePeriodHours createdByUserId rfl
    unfold next
    rcases scope_call (grown_rotateKey _ _ _ _ _) hends
        (fun _ _ ⟨_, _, _, _, _, _, _, _, hreach⟩ => hreach.dirty) with
      ⟨issued, s', ⟨hissues, -, old, time, hold, hrevoked, -, -, hreach⟩, hs⟩ | ⟨err, w, hw, hs⟩
    · dsimp only
      rw [hs, hreach.db]
      have hrotates :
        t.Rotates ⟨.rotateKey organizationId apiId keyId gracePeriodHours createdByUserId, envs⟩
          old := ⟨hold, hrevoked⟩
      obtain ⟨hmem, rfl, -⟩ := hold
      exact .rotated old issued.1.id hissues.id hrotates
        (points_rotate hissues.admitted hissues.rotatedTo hmem) rfl
    · dsimp only
      rw [hs]
      exact steps_same hw.supply
  | elsewhere s =>
    unfold next
    dsimp only
    split
    · rename_i h
      exact .kept h.2 (fun id p => by unfold Points; rw [h.1]) rfl
    · exact steps_same (Nat.le_refl _)

/-! ### The invariant -/

/-- What holds in every run: a key that points to another one was replaced by it, and was there
before it. -/
structure Inv (t : KeyTrail) : Prop where
  issued : ∀ id p, t.Points id p → id < t.state.world.supply
  logged : ∀ id new, t.Points id (some new) → (id, new) ∈ t.rotations
  ordered : ∀ r ∈ t.rotations, r.1 < r.2 ∧ r.2 < t.state.world.supply

theorem Inv.steps (h : t.Inv) (hs : t.Steps e t') : t'.Inv := by
  cases hs with
  | kept hsupply hpoints hrotations =>
    refine ⟨fun id p hp => (h.issued id p ((hpoints id p).1 hp)).trans_le hsupply,
      fun id new hp => ?_, fun r hr => ?_⟩
    · exact hrotations ▸ h.logged id new ((hpoints id _).1 hp)
    · obtain ⟨hlt, hr⟩ := h.ordered r (hrotations ▸ hr)
      exact ⟨hlt, hr.trans_le hsupply⟩
  | issued new hnew hpoints hrotations =>
    have hsupply : t.state.world.supply ≤ t'.state.world.supply := hnew.1.trans hnew.2.le
    refine ⟨fun id p hp => ?_, fun id new' hp => ?_, fun r hr => ?_⟩
    · rcases (hpoints id p).1 hp with hp | ⟨rfl, -⟩
      · exact (h.issued id p hp).trans_le hsupply
      · exact hnew.2
    · rcases (hpoints id _).1 hp with hp | ⟨-, hp⟩
      · exact hrotations ▸ h.logged id new' hp
      · cases hp
    · obtain ⟨hlt, hr⟩ := h.ordered r (hrotations ▸ hr)
      exact ⟨hlt, hr.trans_le hsupply⟩
  | rotated old new hnew hold hpoints hrotations =>
    have hsupply : t.state.world.supply ≤ t'.state.world.supply := hnew.1.trans hnew.2.le
    have hlt : old.id < t.state.world.supply := h.issued _ _ ⟨old, hold.mem, rfl, rfl⟩
    refine ⟨fun id p hp => ?_, fun id new' hp => ?_, fun r hr => ?_⟩
    · rcases (hpoints id p).1 hp with ⟨hp, -⟩ | ⟨rfl, -⟩ | ⟨rfl, -⟩
      · exact (h.issued id p hp).trans_le hsupply
      · exact hnew.2
      · exact hlt.trans_le hsupply
    · rw [hrotations]
      rcases (hpoints id _).1 hp with ⟨hp, -⟩ | ⟨-, hnone⟩ | ⟨rfl, hnew'⟩
      · exact List.mem_cons_of_mem _ (h.logged id new' hp)
      · cases hnone
      · obtain rfl : new' = new := Option.some.inj hnew'
        exact List.mem_cons_self
    · rw [hrotations] at hr
      rcases List.mem_cons.1 hr with rfl | hr
      · exact ⟨hlt.trans_le hnew.1, hnew.2⟩
      · obtain ⟨hlt, hr⟩ := h.ordered r hr
        exact ⟨hlt, hr.trans_le hsupply⟩

theorem Inv.terminates (h : t.Inv) : t.Terminates := by
  refine fun id => follow_ends (m := fun id => t.state.world.supply - id) (fun id next hnext => ?_) id
  obtain ⟨hlt, hissued⟩ := h.ordered _ (h.logged id next (points_of_successor hnext))
  exact Nat.sub_lt_sub_left (hlt.trans hissued) hlt

/-- The trail stays complete where no key is rotated again. -/
theorem Complete.steps (hc : t.Complete) (h : t.Inv) (hs : t.Steps e t')
    (hfirst : ¬ t.RotatesAgain e) : t'.Complete := by
  cases hs with
  | kept hsupply hpoints hrotations =>
    refine ⟨fun r hr id => ?_, hrotations ▸ hc.once⟩
    rw [hpoints]
    exact hc.points r (hrotations ▸ hr) id
  | issued new hnew hpoints hrotations =>
    refine ⟨fun r hr id => ?_, hrotations ▸ hc.once⟩
    rw [hpoints, hc.points r (hrotations ▸ hr) id]
    exact or_iff_left fun h => by cases h.2
  | rotated old new hnew hold hpoints hrotations =>
    have hnot : ∀ r ∈ t.rotations, r.1 ≠ old.id := fun r hr hr₁ => by
      have hpoints : t.Points old.id (some r.2) := (hc.points r hr old.id).2 hr₁.symm
      have hto : old.rotatedTo = some r.2 := Points.eq ⟨old, hold.mem, rfl, rfl⟩ hpoints
      exact hfirst ⟨old, hold.mem, hold, by rw [hto]; rfl⟩
    refine ⟨fun r hr id => ?_, ?_⟩
    · rw [hrotations] at hr
      rw [hpoints]
      rcases List.mem_cons.1 hr with rfl | hr
      · -- no key points to an id that is not handed out yet
        have hnone : ¬ t.Points id (some new) :=
          fun hp => absurd (h.ordered _ (h.logged id new hp)).2 (Nat.not_lt.2 hnew.1)
        simp [hnone]
      · have hne : r.2 ≠ new := ((h.ordered r hr).2.trans_le hnew.1).ne
        rw [hc.points r hr id]
        constructor
        · rintro (⟨hid, -⟩ | ⟨-, hp⟩ | ⟨-, hp⟩)
          · exact hid
          · cases hp
          · exact absurd (Option.some.inj hp) hne
        · exact fun hid => .inl ⟨hid, hid ▸ hnot r hr⟩
    · rw [hrotations, List.map_cons, List.nodup_cons]
      refine ⟨fun hmem => ?_, hc.once⟩
      obtain ⟨r, hr, hr₁⟩ := List.mem_map.1 hmem
      exact hnot r hr hr₁

theorem Inv.not_complete (h : t.Inv) (hs : t.Steps e t') (hagain : t.RotatesAgain e)
    (hrotates : t'.rotations ≠ t.rotations) :
    ¬ t'.Complete := by
  intro hc
  cases hs with
  | kept hsupply hpoints hrotations => exact hrotates hrotations
  | issued new hnew hpoints hrotations => exact hrotates hrotations
  | rotated old new hnew hold hpoints hrotations =>
    obtain ⟨old', hmem, hold', hto⟩ := hagain
    obtain rfl : old = old' := hold.eq hold'
    obtain ⟨first, hfirst⟩ := Option.isSome_iff_exists.1 hto
    have hlogged : (old.id, first) ∈ t.rotations := h.logged _ _ ⟨old, hmem, rfl, hfirst⟩
    have honce := hc.once
    rw [hrotations, List.map_cons, List.nodup_cons] at honce
    exact honce.1 (List.mem_map.2 ⟨_, hlogged, rfl⟩)

theorem inv_initial {s : State platformTables.backend} (h : s.db.apiKeys.rows = []) : Inv ⟨s, []⟩ := by
  have hnone : ∀ id p, ¬ Points ⟨s, []⟩ id p := by
    rintro id p ⟨k, hk, -⟩
    rw [h] at hk
    cases hk
  exact ⟨fun id p hp => absurd hp (hnone id p),
    fun id new hp => absurd hp (hnone id _), fun r hr => by cases hr⟩

theorem complete_initial (s : State platformTables.backend) : Complete ⟨s, []⟩ :=
  ⟨fun _ hr => absurd hr List.not_mem_nil, List.nodup_nil⟩

/-- From a database without keys, following `rotated_to` terminates in every state. The trail is
complete in every state if no rotation is of a key that points to another one already; such a
rotation, when it returns, leaves it incomplete. -/
theorem rotation_trail (cfg : Config) (s : State platformTables.backend)
    (hempty : s.db.apiKeys.rows = []) (es : List KeyEvent) :
    Always (next cfg) Terminates ⟨s, []⟩ es ∧
    (Meets (next cfg) (fun t e => ¬ t.RotatesAgain e) ⟨s, []⟩ es →
      Always (next cfg) Complete ⟨s, []⟩ es) ∧
    ∀ es₁ e es₂, es = es₁ ++ e :: es₂ → RotatesAgain (run (next cfg) ⟨s, []⟩ es₁) e →
      (next cfg (run (next cfg) ⟨s, []⟩ es₁) e).rotations ≠ (run (next cfg) ⟨s, []⟩ es₁).rotations →
      ¬ Complete (next cfg (run (next cfg) ⟨s, []⟩ es₁) e) := by
  have hinit : Inv ⟨s, []⟩ := inv_initial hempty
  have hrun : ∀ es, Inv (run (next cfg) ⟨s, []⟩ es) :=
    run_invariant (fun t e h => h.steps (steps cfg t e)) hinit
  refine ⟨always_iff.2
    fun es₁ _ _ => (hrun es₁).terminates, fun hmeets => ?_, fun es₁ e es₂ _ hagain hrotates => ?_⟩
  · have hboth : Always (next cfg) (fun t => t.Inv ∧ t.Complete) ⟨s, []⟩ es :=
      Always.of_meets
        (fun t e h hfirst => ⟨h.1.steps (steps cfg t e), h.2.steps h.1 (steps cfg t e) hfirst⟩)
        ⟨hinit, complete_initial s⟩ hmeets
    exact always_iff.2 fun es₁ es₂ hes => (always_iff.1 hboth es₁ es₂ hes).2
  · exact (hrun es₁).not_complete (steps cfg _ e) hagain hrotates

/-- The sample database without its key. -/
def sampleKeyless : State platformTables.backend where
  db := { samplePlatformDb .empty with apiKeys := .empty, keyRefers := by decide, usageRefers := by decide }
  world := sampleGatewayWorld

/-- A call with random texts of its own. -/
def sampleKeyEvent (n : Nat) (operation : KeyOperation) : KeyEvent :=
  ⟨operation, fun _ => { sampleGatewayEnv n with text := String.ofList (List.replicate n 'x') }⟩

def sampleCreation : KeyEvent := sampleKeyEvent 1 (.createKey 5 41 "key" none none)

def sampleRotation (n : Nat) (keyId : Uuid) : KeyEvent :=
  sampleKeyEvent n (.rotateKey 5 41 keyId 24 none)

/-- A key is rotated, then its successor. -/
theorem rotation_trail_successor :
    Always (next sampleConfig) Terminates ⟨sampleKeyless, []⟩
      [sampleCreation, sampleRotation 2 100, sampleRotation 3 101] ∧
    Always (next sampleConfig) Complete ⟨sampleKeyless, []⟩
      [sampleCreation, sampleRotation 2 100, sampleRotation 3 101] := by
  obtain ⟨hterminates, hcomplete, -⟩ := rotation_trail sampleConfig sampleKeyless rfl
    [sampleCreation, sampleRotation 2 100, sampleRotation 3 101]
  exact ⟨hterminates, hcomplete (by decide +kernel)⟩

/-- A key is rotated twice within its grace window. -/
theorem rotated_twice : ¬ ∀ (cfg : Config) (s : State platformTables.backend),
    s.db.apiKeys.rows = [] → ∀ es : List KeyEvent,
    Always (next cfg) (fun t => t.Complete ∧ t.Terminates) ⟨s, []⟩ es := by
  intro h
  have hall := h sampleConfig sampleKeyless rfl [sampleCreation, sampleRotation 2 100, sampleRotation 3 100]
  have hlast :=
    (always_iff.1 hall [sampleCreation, sampleRotation 2 100, sampleRotation 3 100] [] rfl).1
  have hrotations :
      (run (next sampleConfig) ⟨sampleKeyless, []⟩
        [sampleCreation, sampleRotation 2 100, sampleRotation 3 100]).rotations =
      [(100, 102), (100, 101)] := by decide +kernel
  have honce := hlast.once
  rw [hrotations] at honce
  exact absurd honce (by decide)

end KeyTrail

end TrafficPlatform
