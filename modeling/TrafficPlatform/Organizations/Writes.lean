import TrafficPlatform.Organizations
import TrafficPlatform.Kit.Interleave

/-!
# What the organization requests write

A transaction decides on what it has seen (`Seen`): databases from which the others have since
changed the committed one within a rely `R`. Every request writes what `OrgRequest.Writes` says, for
every `R` along which the roles stay. With equality for `R` this speaks of a request that runs alone.
-/

namespace TrafficPlatform
open Kit

/-! ### The rows -/

namespace OrgDb

/-- The role of the membership is called `name`. -/
def MemberHasRole (db : OrgDb) (m : OrganizationMember) (name : String) : Prop :=
  ∃ r ∈ db.roles.rows, r.id = m.roleId ∧ r.name = name

instance (db : OrgDb) (m : OrganizationMember) (name : String) : Decidable (db.MemberHasRole m name) :=
  inferInstanceAs (Decidable (∃ r ∈ db.roles.rows, _))

/-- The membership makes its user an owner of the organization. -/
def OwnerRow (db : OrgDb) (orgId : Uuid) (m : OrganizationMember) : Prop :=
  m ∈ db.members.rows ∧ m.organizationId = orgId ∧ db.MemberHasRole m RoleName.owner.name

/-- The user is an owner of the organization. -/
def IsOwner (db : OrgDb) (orgId userId : Uuid) : Prop := ∃ m, db.OwnerRow orgId m ∧ m.userId = userId

/-- The user is a member of the organization. -/
def IsMember (db : OrgDb) (orgId userId : Uuid) : Prop :=
  ∃ m ∈ db.members.rows, m.organizationId = orgId ∧ m.userId = userId

/-- The role of the user in the organization grants the permission. -/
def Holds (db : OrgDb) (orgId userId : Uuid) (permission : Permission) : Prop :=
  ∃ m ∈ db.members.rows, m.organizationId = orgId ∧ m.userId = userId ∧
    ∃ role : RoleName, db.MemberHasRole m role.name ∧ roleHasPermission role permission = true

/-- The user is there and active. -/
def IsActive (db : OrgDb) (userId : Uuid) : Prop := ∃ u ∈ db.users.rows, u.id = userId ∧
    u.isActive = true

/-- `count_with_role` for the owner role. -/
def ownerCount (db : OrgDb) (orgId : Uuid) : Nat :=
  (db.members.select
    fun m => m.organizationId == orgId && decide (db.MemberHasRole m RoleName.owner.name)).length

variable {db : OrgDb} {m m' : OrganizationMember} {r r' : Role} {orgId userId : Uuid}

theorem role_eq (hr : r ∈ db.roles.rows) (hr' : r' ∈ db.roles.rows)
    (h : r.id = r'.id ∨ r.name = r'.name) :
    r = r' :=
  Table.eq_of_clash hr hr' (Role.clash_iff.2 h)

theorem memberHasRole_iff {name : String} (hr : r ∈ db.roles.rows) (hn : r.name = name) :
    db.MemberHasRole m name ↔ m.roleId = r.id := by
  constructor
  · rintro ⟨r', hr', hid, hn'⟩
    rw [← hid, role_eq hr' hr (.inr (hn'.trans hn.symm))]
  · exact fun h => ⟨r, hr, h.symm, hn⟩

theorem member_eq (hm : m ∈ db.members.rows) (hm' : m' ∈ db.members.rows) (h : m.id = m'.id) : m = m' :=
  Table.eq_of_clash hm hm' (OrganizationMember.clash_iff.2 (.inl h))

theorem member_unique (hm : m ∈ db.members.rows) (hm' : m' ∈ db.members.rows)
    (ho : m.organizationId = m'.organizationId) (hu : m.userId = m'.userId) : m = m' :=
  Table.eq_of_clash hm hm' (OrganizationMember.clash_iff.2 (.inr ⟨ho, hu⟩))

theorem holds_orgDelete : db.Holds orgId userId .orgDelete ↔ db.IsOwner orgId userId := by
  constructor
  · rintro ⟨m, hm, ho, hu, role, hr, hp⟩
    rw [roleHasPermission_orgDelete] at hp
    exact ⟨m, ⟨hm, ho, hp ▸ hr⟩, hu⟩
  · rintro ⟨m, ⟨hm, ho, hr⟩, hu⟩
    exact ⟨m, hm, ho, hu, .owner, hr, roleHasPermission_orgDelete.2 rfl⟩

theorem ownerCount_eq {owner : Role} (hr : owner ∈ db.roles.rows)
    (hn : owner.name = RoleName.owner.name) :
    db.ownerCount orgId =
      (db.members.select fun m => m.organizationId == orgId && m.roleId == owner.id).length := by
  simp only [ownerCount, memberHasRole_iff hr hn, ← beq_eq_decide]

end OrgDb

/-! ### What a transaction has seen -/

/-- The transaction saw a database with `P`, and the others have changed it within `R` since. -/
def OrgDb.Seen (R : OrgDb → OrgDb → Prop) (P : OrgDb → Prop) (db : OrgDb) : Prop :=
  ∃ db₀, R db₀ db ∧ P db₀

@[simp] theorem OrgDb.seen_eq {P : OrgDb → Prop} {db : OrgDb} : OrgDb.Seen (· = ·) P db ↔ P db := by
  simp [OrgDb.Seen]

/-- What every rely of the organization service says: it is a preorder along which the roles stay. -/
structure OrgRely (R : OrgDb → OrgDb → Prop) : Prop where
  refl : ∀ db, R db db
  trans : ∀ a b c, R a b → R b c → R a c
  roles : ∀ {a b}, R a b → b.roles = a.roles

theorem OrgRely.ofEq : OrgRely (· = ·) := ⟨fun _ => rfl, fun _ _ _ => Eq.trans, fun h => h ▸ rfl⟩

/-- The roles stay. -/
def OrgDb.SameRoles (a b : OrgDb) : Prop := b.roles = a.roles

theorem OrgRely.ofRoles : OrgRely OrgDb.SameRoles :=
  ⟨fun _ => rfl, fun _ _ _ h h' => Eq.trans h' h, id⟩

theorem OrgDb.Seen.mono {R : OrgDb → OrgDb → Prop} {P : OrgDb → Prop} {db db' : OrgDb} (hR : OrgRely R)
    (h : db.Seen R P) (hr : R db db') : db'.Seen R P := by
  obtain ⟨db₀, h₀, hp⟩ := h
  exact ⟨db₀, hR.trans _ _ _ h₀ hr, hp⟩

theorem OrgRely.memberHasRole {R : OrgDb → OrgDb → Prop} (hR : OrgRely R) {m : OrganizationMember}
    {name : String} {db db' : OrgDb}
    (h : R db db') : db'.MemberHasRole m name ↔ db.MemberHasRole m name := by
  rw [OrgDb.MemberHasRole, hR.roles h, OrgDb.MemberHasRole]

/-- The caller was active, and the caller's role granted the permission. -/
structure OrgDb.Authorized (R : OrgDb → OrgDb → Prop) (orgId caller : Uuid) (permission : Permission)
    (db : OrgDb) : Prop where
  active : db.Seen R fun db => db.IsActive caller
  holds : db.Seen R fun db => db.Holds orgId caller permission

theorem OrgDb.Authorized.mono {R : OrgDb → OrgDb → Prop} {orgId caller : Uuid} {permission : Permission}
    {db db' : OrgDb} (hR : OrgRely R) (h : db.Authorized R orgId caller permission) (hr : R db db') :
    db'.Authorized R orgId caller permission :=
  ⟨OrgDb.Seen.mono hR h.active hr, OrgDb.Seen.mono hR h.holds hr⟩

/-- What a request that returns has seen and written. -/
def OrgRequest.Writes (cfg : Config) (R : OrgDb → OrgDb → Prop) : OrgRequest → List OrgOp → OrgDb → Prop
  | .updateOrganization _ _ _, w, _ => ∀ o ∈ w, ∃ id name, o = .setOrganizationName id name
  | .deleteOrganization caller orgId, w, db => db.Authorized R orgId caller .orgDelete ∧
    ∃ ms : List OrganizationMember,
      (db.Seen R fun db => ∀ m ∈ ms, m ∈ db.members.rows ∧ m.organizationId = orgId) ∧
      w = ms.map (fun m => .deleteMember m.id) ++ [.deleteOrganization orgId]
  | .addMember caller orgId email role, w, db =>
    db.Authorized R orgId caller .memberInvite ∧ ∃ u r id n,
      (db.Seen R fun db => u ∈ db.users.rows ∧ u.email = cfg.lower (cfg.lower email)) ∧
      (db.Seen R fun db => ¬ db.IsMember orgId u.id) ∧ r ∈ db.roles.rows ∧ r.name = role.name ∧
      w = [.addMember ⟨id, orgId, u.id, r.id⟩, .addNotification n]
  | .updateMemberRole caller orgId memberId role, w, db =>
    db.Authorized R orgId caller .memberUpdateRole ∧ ∃ m r,
      (db.Seen R fun db => m ∈ db.members.rows ∧ m.id = memberId ∧ m.organizationId = orgId) ∧
      r ∈ db.roles.rows ∧ r.name = role.name ∧
      (db.MemberHasRole m RoleName.owner.name → role ≠ .owner →
        db.Seen R fun db => 2 ≤ db.ownerCount orgId) ∧
      ((w = [] ∧ m.roleId = r.id) ∨ w = [.setMemberRole memberId r.id])
  | .removeMember caller orgId memberId, w, db => db.Authorized R orgId caller .memberRemove ∧ ∃ m,
      (db.Seen R fun db => m ∈ db.members.rows ∧ m.id = memberId ∧ m.organizationId = orgId) ∧
      (db.MemberHasRole m RoleName.owner.name → db.Seen R fun db => 2 ≤ db.ownerCount orgId) ∧
      w = [.deleteMember memberId]

/-! ### The handlers -/

/-- A handler that relies on `R`. -/
abbrev Org.Safe {α : Type} (R : OrgDb → OrgDb → Prop) (p : Org α)
    (Q : α → List OrgOp → List OrgOp → OrgDb → Prop) (d w : List OrgOp) (db : OrgDb) : Prop :=
  Prog.Safe (B := orgTables.backend) (fun _ => R) (fun _ _ => True) Q p d w db

namespace Organizations

variable {cfg : Config} {α : Type} {R : OrgDb → OrgDb → Prop}
    {Q : α → List OrgOp → List OrgOp → OrgDb → Prop}
  {d w : List OrgOp} {db : OrgDb}

theorem getCurrentUser_safe {caller : Uuid} {k : User → Org α}
    (h : ∀ u db', R db db' → u.id = caller → db'.IsActive caller → Org.Safe R (k u) Q d [] db') :
    Org.Safe R (getCurrentUser caller >>= k) Q d [] db := by
  simp only [getCurrentUser, UserRepository.get, Prog.bind_assoc']
  refine Prog.Safe.query_nil fun db₁ h₁ => ?_
  split
  · trivial
  rename_i user huser
  split
  · trivial
  · rename_i hactive
    have hid : user.id = caller := by simpa using Table.pred_of_one huser
    exact h user db₁ h₁ hid ⟨user, Table.mem_of_one huser, hid, by simpa using hactive⟩

theorem getForUserAndOrg_safe {userId orgId : Uuid} {k : Option (OrganizationMember × Role) → Org α}
    (hn : ∀ db', R db db' → ¬ db'.IsMember orgId userId → Org.Safe R (k none) Q d [] db')
    (hs : ∀ m r db', R db db' → m ∈ db'.members.rows → m.organizationId = orgId → m.userId = userId →
      db'.MemberHasRole m r.name → Org.Safe R (k (some (m, r))) Q d [] db') :
    Org.Safe R (MembershipRepository.getForUserAndOrg userId orgId >>= k) Q d [] db := by
  refine Prog.Safe.query_nil fun db₁ h₁ => ?_
  cases hm : db₁.members.one _ with
  | none =>
    refine hn db₁ h₁ fun ⟨m, hm', ho, hu⟩ => ?_
    exact Table.one_eq_none.1 hm m hm' (by simp [ho, hu])
  | some m =>
    have hmem := Table.mem_of_one hm
    have hp := Table.pred_of_one hm
    simp only [Bool.and_eq_true, beq_iff_eq] at hp
    simp only [Option.bind_some]
    obtain ⟨r, hr, hid⟩ := (db₁.refers m hmem).2.2
    have hone : (db₁.roles.one fun r => r.id == m.roleId) = some r :=
      Table.one_eq_some hr (by simpa using hid) fun b hb => Role.clash_iff.2 (.inl (by simp_all))
    rw [hone]
    exact hs m r db₁ h₁ hmem hp.2 hp.1 ⟨r, hr, hid, rfl⟩

theorem authorize_safe (hR : OrgRely R) {permission : Permission} {caller orgId : Uuid}
    {k : OrganizationMember → Org α} (h : ∀ m db', R db db' → m ∈ db'.members.rows →
      db'.Authorized R orgId caller permission → Org.Safe R (k m) Q d [] db') :
    Org.Safe R (OrgRequest.authorize permission caller orgId >>= k) Q d [] db := by
  simp only [OrgRequest.authorize, requirePermission, Prog.bind_assoc']
  refine getCurrentUser_safe fun u db₁ h₁ hu hactive => getForUserAndOrg_safe (fun _ _ _ => ?_) ?_
  · dsimp only; split <;> trivial
  intro m r db₂ h₂ hm ho hmu hrole
  dsimp only
  split
  · trivial
  rename_i name hname
  split
  · trivial
  · rename_i hp
    refine h m db₂ (hR.trans _ _ _ h₁ h₂) hm
      ⟨⟨db₁, h₂, hactive⟩, db₂, hR.refl _, m, hm, ho, hmu.trans hu, name, ?_,
      by simpa using hp⟩
    rwa [RoleName.name_of_ofName hname]

theorem roleId_safe {role : RoleName} {k : Uuid → Org α}
    (h : ∀ r db', R db db' → r ∈ db'.roles.rows → r.name = role.name → Org.Safe R (k r.id) Q d [] db') :
    Org.Safe R (OrganizationService.roleId role >>= k) Q d [] db := by
  simp only [OrganizationService.roleId, RoleRepository.getByName, Prog.bind_assoc']
  refine Prog.Safe.query_nil fun db₁ h₁ => ?_
  split
  · trivial
  · rename_i r hr
    exact h r db₁ h₁ (Table.mem_of_one hr) (by simpa using Table.pred_of_one hr)

theorem getMember_safe (hR : OrgRely R) {loaded : OrganizationMember} {orgId memberId : Uuid}
    {k : OrganizationMember → Org α}
    (hl : loaded ∈ db.members.rows) (h : ∀ m db', R db db' → (db'.Seen R fun db => m ∈ db.members.rows ∧
      m.id = memberId ∧ m.organizationId = orgId) → Org.Safe R (k m) Q d [] db') :
    Org.Safe R (OrganizationService.getMember loaded orgId memberId >>= k) Q d [] db := by
  simp only [OrganizationService.getMember, MembershipRepository.get, Prog.bind_assoc']
  split
  · rename_i hid
    simp only [Prog.pure_eq, Prog.ret_bind]
    split
    · trivial
    · rename_i ho
      exact h loaded db (hR.refl _) ⟨db, hR.refl _, hl, hid, by simpa using ho⟩
  · refine Prog.Safe.query_nil fun db₁ h₁ => ?_
    split
    · trivial
    rename_i m hm
    split
    · trivial
    · rename_i ho
      exact h m db₁ h₁
        ⟨db₁, hR.refl _, Table.mem_of_one hm,
          by simpa using Table.pred_of_one hm, by simpa using ho⟩

theorem refuseLastOwner_safe {orgId : Uuid} {owner : Role} {message : String} {k : Unit → Org α}
    (hR : OrgRely R) (hr : owner ∈ db.roles.rows) (hn : owner.name = RoleName.owner.name)
    (h : ∀ db', R db db' → 2 ≤ db'.ownerCount orgId → Org.Safe R (k ()) Q d [] db') :
    Org.Safe R (OrganizationService.refuseLastOwner orgId owner.id message >>= k) Q d [] db := by
  simp only [OrganizationService.refuseLastOwner, MembershipRepository.countWithRole, Prog.bind_assoc']
  refine Prog.Safe.query_nil fun db₁ h₁ => ?_
  split
  · trivial
  · rename_i hc
    refine h db₁ h₁ ?_
    rw [OrgDb.ownerCount_eq (by rwa [hR.roles h₁]) hn]
    omega

theorem hydrate_safe {m : OrganizationMember} {k : User × Role → Org α}
    (h : ∀ row db', R db db' → Org.Safe R (k row) Q d w db') :
    Org.Safe R (OrganizationService.hydrate m >>= k) Q d w db := by
  simp only [OrganizationService.hydrate, Prog.bind_assoc']
  refine Prog.Safe.query fun db₁ h₁ _ => ?_
  split
  · trivial
  · exact h _ db₁ h₁

theorem updateOrganization_emits (orgId : Uuid) (name : String) :
    (OrganizationService.updateOrganization orgId name).Emits fun o =>
      ∃ id name, o = OrgOp.setOrganizationName id name := by
  simp only [OrganizationService.updateOrganization, OrganizationService.getOrganization,
    OrganizationRepository.get, Prog.bind_assoc', Prog.emits_query]
  intro db
  split
  · trivial
  · simp only [Prog.pure_eq, Prog.ret_bind]
    split <;> simp

theorem deleteEach_safe (hR : OrgRely R) {k : Unit → Org α} (ms : List OrganizationMember)
    {d : List OrgOp} (h : Org.Safe R (k ()) Q (d ++ ms.map fun m => .deleteMember m.id) w db) :
    Org.Safe R (OrganizationRepository.delete.deleteEach ms >>= k) Q d w db := by
  induction ms generalizing d with
  | nil => simpa [OrganizationRepository.delete.deleteEach] using h
  | cons m ms ih =>
    simp only [OrganizationRepository.delete.deleteEach, Prog.bind_assoc']
    exact Prog.Safe.set hR.trans (ih (by simpa using h))

theorem deleteOrganization_safe (hR : OrgRely R) {orgId : Uuid} {k : Unit → Org α}
    (h : ∀ (ms : List OrganizationMember) (db' : OrgDb), R db db' →
      (db'.Seen R fun db => ∀ m ∈ ms, m ∈ db.members.rows ∧ m.organizationId = orgId) →
      Org.Safe R (k ()) Q []
        (ms.map (fun m => .deleteMember m.id) ++ [.deleteOrganization orgId]) db') :
    Org.Safe R (OrganizationService.deleteOrganization orgId >>= k) Q [] [] db := by
  simp only [OrganizationService.deleteOrganization, OrganizationService.getOrganization,
    OrganizationRepository.get, OrganizationRepository.delete, Prog.bind_assoc']
  refine Prog.Safe.query_nil fun db₁ h₁ => ?_
  split
  · trivial
  rename_i org horg
  have hid : org.id = orgId := by simpa using Table.pred_of_one horg
  simp only [Prog.pure_eq, Prog.ret_bind, hid]
  refine Prog.Safe.query_nil fun db₂ h₂ => deleteEach_safe hR _ (Prog.Safe.set hR.trans ?_)
  refine Prog.Safe.flushSession fun db₃ h₃ _ => ?_
  refine h _ db₃ (hR.trans _ _ _ h₁ (hR.trans _ _ _ h₂ h₃)) ⟨db₂, h₃, fun m hm => ?_⟩
  exact ⟨(Table.mem_select.1 hm).1, by simpa using (Table.mem_select.1 hm).2⟩

theorem addMember_safe (hR : OrgRely R) {orgId : Uuid} {email : String} {role : RoleName}
    {k : OrganizationMember × User × Role → Org α} (h : ∀ u r id row db', R db db' →
      (db'.Seen R fun db => u ∈ db.users.rows ∧ u.email = cfg.lower (cfg.lower email)) →
      (db'.Seen R fun db => ¬ db.IsMember orgId u.id) → r ∈ db'.roles.rows → r.name = role.name →
      Org.Safe R (k (⟨id, orgId, u.id, r.id⟩, row)) Q [] [.addMember ⟨id, orgId, u.id, r.id⟩] db') :
    Org.Safe R (OrganizationService.addMember cfg orgId email role >>= k) Q [] [] db := by
  simp only [OrganizationService.addMember, UserRepository.getByEmail, MembershipRepository.add, uuid4,
    Prog.bind_assoc']
  refine Prog.Safe.query_nil fun db₁ h₁ => ?_
  split
  · trivial
  rename_i u hu
  simp only [Prog.bind_assoc']
  refine getForUserAndOrg_safe (fun db₂ h₂ hnone => ?_) fun _ _ _ _ _ _ _ _ => trivial
  simp only [Option.isSome_none, Bool.false_eq_true, if_false, Prog.bind_assoc']
  refine roleId_safe fun r db₃ h₃ hr hname => Prog.Safe.ask hR.trans fun id => ?_
  refine Prog.Safe.set hR.trans
    (Prog.Safe.flushSession fun db₄ h₄ _ => hydrate_safe fun row db₅ h₅ => ?_)
  have h₃₅ := hR.trans _ _ _ h₃ (hR.trans _ _ _ h₄ h₅)
  have h₂₅ := hR.trans _ _ _ h₂ h₃₅
  refine h u r id row db₅ (hR.trans _ _ _ h₁ h₂₅) ⟨db₁, h₂₅, Table.mem_of_one hu, ?_⟩
    ⟨db₂, h₃₅, hnone⟩ ?_ hname
  · simpa using Table.pred_of_one hu
  · rwa [hR.roles (hR.trans _ _ _ h₄ h₅)]

theorem create_safe (hR : OrgRely R) {userId : Uuid} {type title body : String}
    {orgId : Option Uuid} {k : Unit → Org α}
    (h : ∀ n db', R db db' → Org.Safe R (k ()) Q [] (w ++ [.addNotification n]) db') :
    Org.Safe R (NotificationService.create userId type title body orgId >>= k) Q [] w db := by
  simp only [NotificationService.create, uuid4, Prog.bind_assoc']
  exact Prog.Safe.ask hR.trans
    fun id => Prog.Safe.set hR.trans (Prog.Safe.flushSession fun db₁ h₁ _ => h _ db₁ h₁)

theorem guard_safe {β : Type} (hR : OrgRely R) {orgId : Uuid} {owner : Role}
    {message : String} {c : Prop}
    [Decidable c] {p : Org β} {k : β → Org α} (hr : owner ∈ db.roles.rows)
    (hn : owner.name = RoleName.owner.name)
    (h : ∀ db', R db db' → (c → db'.Seen R fun db => 2 ≤ db.ownerCount orgId) →
      Org.Safe R (p >>= k) Q d [] db') :
    Org.Safe R ((if c then OrganizationService.refuseLastOwner orgId owner.id message >>=
      fun _ => p else p) >>= k)
      Q d [] db := by
  split
  · rw [Prog.bind_assoc']
    exact refuseLastOwner_safe hR hr hn fun db' h' hc => h db' h' fun _ => ⟨db', hR.refl _, hc⟩
  · rename_i hne
    exact h db (hR.refl _) fun c => absurd c hne

theorem updateMemberRole_safe (hR : OrgRely R) {loaded : OrganizationMember} {orgId memberId : Uuid}
    {role : RoleName} {k : OrganizationMember × User × Role → Org α} (hl : loaded ∈ db.members.rows)
    (h : ∀ m r w row db', R db db' → (db'.Seen R fun db => m ∈ db.members.rows ∧ m.id = memberId ∧
      m.organizationId = orgId) → r ∈ db'.roles.rows → r.name = role.name →
      (db'.MemberHasRole m RoleName.owner.name → role ≠ .owner →
        db'.Seen R fun db => 2 ≤ db.ownerCount orgId) →
      ((w = [] ∧ m.roleId = r.id) ∨ w = [OrgOp.setMemberRole memberId r.id]) →
      Org.Safe R (k ({ m with roleId := r.id }, row)) Q [] w db') :
    Org.Safe R (OrganizationService.updateMemberRole loaded orgId memberId role >>= k) Q [] [] db := by
  simp only [OrganizationService.updateMemberRole, Prog.bind_assoc']
  refine getMember_safe hR hl fun m db₁ h₁ hm => roleId_safe fun owner db₂ h₂ ho hon => ?_
  refine guard_safe hR ho hon fun db₃ h₃ hguard => ?_
  simp only [Prog.bind_assoc']
  refine roleId_safe fun r db₄ h₄ hr hrn => ?_
  have hid : m.id = memberId := by obtain ⟨_, _, _, hid, _⟩ := hm; exact hid
  have finish : ∀ w db₅, R db₄ db₅ →
      ((w = [] ∧ m.roleId = r.id) ∨ w = [OrgOp.setMemberRole memberId r.id]) →
      Org.Safe R (OrganizationService.hydrate m >>= fun row => k ({ m with roleId := r.id }, row)) Q
          [] w db₅ := by
    intro w db₅ h₅ hw
    refine hydrate_safe fun row db₆ h₆ => ?_
    have h₃₆ := hR.trans _ _ _ h₄ (hR.trans _ _ _ h₅ h₆)
    have h₂₆ := hR.trans _ _ _ h₃ h₃₆
    have h₁₆ := hR.trans _ _ _ h₂ h₂₆
    refine h m r w row db₆ (hR.trans _ _ _ h₁ h₁₆) (OrgDb.Seen.mono hR hm h₁₆) ?_ hrn
      (fun hmo hro => ?_) hw
    · rwa [hR.roles (hR.trans _ _ _ h₅ h₆)]
    · rw [OrgDb.memberHasRole_iff (hR.roles h₂₆ ▸ ho) hon] at hmo
      exact OrgDb.Seen.mono hR (hguard ⟨hmo, hro⟩) h₃₆
  split
  · simp only [Prog.bind_assoc']
    exact Prog.Safe.set hR.trans
      (Prog.Safe.flushSession fun db₅ h₅ _ => finish _ db₅ h₅ (.inr (by simp [hid])))
  · rename_i hsame
    simp only [Prog.bind_assoc']
    exact Prog.Safe.flushSession fun db₅ h₅ _ => finish _ db₅ h₅ (.inl ⟨rfl, by simpa using hsame⟩)

theorem removeMember_safe (hR : OrgRely R) {loaded : OrganizationMember} {orgId memberId : Uuid}
    {k : Unit → Org α} (hl : loaded ∈ db.members.rows)
    (h : ∀ m db', R db db' → (db'.Seen R fun db => m ∈ db.members.rows ∧ m.id = memberId ∧
      m.organizationId = orgId) →
      (db'.MemberHasRole m RoleName.owner.name → db'.Seen R fun db => 2 ≤ db.ownerCount orgId) →
      Org.Safe R (k ()) Q [] [OrgOp.deleteMember memberId] db') :
    Org.Safe R (OrganizationService.removeMember loaded orgId memberId >>= k) Q [] [] db := by
  simp only [OrganizationService.removeMember, MembershipRepository.delete, Prog.bind_assoc']
  refine getMember_safe hR hl fun m db₁ h₁ hm => roleId_safe fun owner db₂ h₂ ho hon => ?_
  have hid : m.id = memberId := by obtain ⟨_, _, _, hid, _⟩ := hm; exact hid
  refine guard_safe hR ho hon fun db₃ h₃ hguard => ?_
  simp only [Prog.bind_assoc']
  refine Prog.Safe.set hR.trans (Prog.Safe.flushSession fun db₄ h₄ _ => ?_)
  have h₂₄ := hR.trans _ _ _ h₃ h₄
  have h₁₄ := hR.trans _ _ _ h₂ h₂₄
  simp only [List.nil_append, hid]
  refine h m db₄ (hR.trans _ _ _ h₁ h₁₄) (OrgDb.Seen.mono hR hm h₁₄) fun hmo => ?_
  rw [OrgDb.memberHasRole_iff (hR.roles h₂₄ ▸ ho) hon] at hmo
  exact OrgDb.Seen.mono hR (hguard hmo) h₄

end Organizations

open Organizations in
/-- What each handler has seen and written when it returns, whatever the other transactions commit
meanwhile. -/
theorem OrgRequest.prog_safe {cfg : Config} {R : OrgDb → OrgDb → Prop} (hR : OrgRely R)
    (r : OrgRequest) (db : OrgDb) :
    Org.Safe R (r.prog cfg) (fun _ d w db' => r.Writes cfg R (w ++ d) db') [] [] db := by
  cases r with
  | updateOrganization caller orgId name =>
    refine authorize_safe hR fun m db₁ _ _ _ => ?_
    refine (Prog.Safe.of_emits (fun _ _ _ => trivial)
      ((updateOrganization_emits orgId name).bind fun _ => ?_)
      (by simp)).mono fun _ _ _ _ h => h
    trivial
  | deleteOrganization caller orgId =>
    refine authorize_safe hR fun m db₁ _ _ hp => ?_
    refine deleteOrganization_safe hR fun ms db₂ h₂ hms db₃ h₃ _ => ?_
    exact ⟨hp.mono hR (hR.trans _ _ _ h₂ h₃), ms, OrgDb.Seen.mono hR hms h₃, by simp⟩
  | addMember caller orgId email role =>
    refine authorize_safe hR
      fun m db₁ _ _ hp => addMember_safe hR fun u r id row db₂ h₂ hu hn hr hrn => ?_
    refine create_safe hR fun n db₃ h₃ db₄ h₄ _ => ?_
    have h₂₄ := hR.trans _ _ _ h₃ h₄
    refine ⟨hp.mono hR (hR.trans _ _ _ h₂ h₂₄), u, r, id, n, OrgDb.Seen.mono hR hu h₂₄,
      OrgDb.Seen.mono hR hn h₂₄, ?_, hrn, rfl⟩
    rwa [hR.roles h₂₄]
  | updateMemberRole caller orgId memberId role =>
    refine authorize_safe hR
      fun l db₁ _ hl hp => updateMemberRole_safe hR hl fun m r w row db₂ h₂ hm hr hrn hc hw => ?_
    intro db₃ h₃ _
    refine ⟨hp.mono hR (hR.trans _ _ _ h₂ h₃), m, r, OrgDb.Seen.mono hR hm h₃, hR.roles h₃ ▸ hr,
      hrn, fun hmo hro => ?_, by simpa using hw⟩
    exact OrgDb.Seen.mono hR (hc ((hR.memberHasRole h₃).1 hmo) hro) h₃
  | removeMember caller orgId memberId =>
    refine authorize_safe hR fun l db₁ _ hl hp => removeMember_safe hR hl fun m db₂ h₂ hm hc => ?_
    intro db₃ h₃ _
    refine ⟨hp.mono hR (hR.trans _ _ _ h₂ h₃), m, OrgDb.Seen.mono hR hm h₃, fun hmo => ?_, rfl⟩
    exact OrgDb.Seen.mono hR (hc ((hR.memberHasRole h₃).1 hmo)) h₃

/-! ### The effect of the writes -/

theorem OrgOp.apply_roles (o : OrgOp) (db : OrgDb) : (o.apply db).roles = db.roles := by
  cases o with
  | addMember m => simp only [apply, OrgDb.addMember]; split <;> rfl
  | setMemberRole id roleId => simp only [apply, OrgDb.setMemberRole]; split <;> rfl
  | _ => rfl

theorem applyAll_roles (w : List OrgOp) (db : OrgDb) :
    (applyAll orgTables.backend w db).roles = db.roles :=
  applyAll_invariant (B := orgTables.backend) (P := fun db' => db'.roles = db.roles)
    (fun o _ db' h => (o.apply_roles db').trans h) rfl

theorem orgBounded (cfg : Config) : Bounded (OrgRequest.prog cfg) (fun _ => True) OrgDb.SameRoles
    (fun _ _ => True) (fun r _ w db => r.Writes cfg OrgDb.SameRoles w db) where
  refl := OrgRely.ofRoles.refl
  trans := OrgRely.ofRoles.trans
  inv _ _ _ _ := trivial
  check _ _ _ _ _ := trivial
  stable _ _ _ _ _ := trivial
  safe r db _ := r.prog_safe .ofRoles db
  commit _ _ w db _ _ := applyAll_roles w db

/-- The interleaved organization requests. -/
abbrev OrgSystem : Type 1 := System orgTables.backend OrgRequest OrgAnswer

abbrev OrgEvent : Type := Event orgTables.backend OrgRequest

/-- One step of some transaction. -/
abbrev orgNext (cfg : Config) : OrgSystem → OrgEvent → OrgSystem := System.next (OrgRequest.prog cfg)

end TrafficPlatform
