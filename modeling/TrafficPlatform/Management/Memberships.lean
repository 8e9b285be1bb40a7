import TrafficPlatform.Management.Runs
import TrafficPlatform.Organizations.LastOwner

/-!
# Memberships over runs

The organization service called one after another, each call in its own transaction: every
organization keeps an owner, because the two calls that can unseat one count the owners first.
-/

namespace TrafficPlatform
open Kit Organizations

/-! ### The calls -/

/-- A call of `OrganizationService`. -/
inductive MembershipCall
  | createOrganization (owner : User) (name : String) (slug : Option String)
  | addMember (orgId : Uuid) (email : String) (role : RoleName)
  | updateMemberRole (orgId memberId : Uuid) (role : RoleName)
  | removeMember (orgId memberId : Uuid)
  | deleteOrganization (orgId : Uuid)
deriving DecidableEq, Repr

/-- `session.get` of a session that has loaded no membership yet. -/
def loadMember (memberId : Uuid) : Org OrganizationMember := do
  let member ← .query fun db : OrgDb => db.members.one fun m => m.id == memberId
  match member with
  | none => .raise (ErrorClass.notFoundError.error "Member not found in this organization.")
  | some member => return member

/-- `update_member_role` in such a session. -/
def updateMemberRoleOf (orgId memberId : Uuid) (role : RoleName) :
    Org (OrganizationMember × User × Role) := do
  let loaded ← loadMember memberId
  OrganizationService.updateMemberRole loaded orgId memberId role

/-- `remove_member` in such a session. -/
def removeMemberOf (orgId memberId : Uuid) : Org Unit := do
  let loaded ← loadMember memberId
  OrganizationService.removeMember loaded orgId memberId

namespace MembershipCall

/-- The call; it returns the organization that it is for. -/
def prog (cfg : Config) : MembershipCall → Management Uuid
  | createOrganization owner name slug => do
    let org ← Management.OrganizationService.createOrganization cfg owner name slug
    return org.id
  | addMember orgId email role => do
    let _ ← (OrganizationService.addMember cfg orgId email role).embed
    return orgId
  | updateMemberRole orgId memberId role => do
    let _ ← (updateMemberRoleOf orgId memberId role).embed
    return orgId
  | removeMember orgId memberId => do
    (removeMemberOf orgId memberId).embed
    return orgId
  | deleteOrganization orgId => do
    (OrganizationService.deleteOrganization orgId).embed
    return orgId

/-- What a call that returns `orgId` has done. -/
def Effect (db : OrgDb) (orgId : Uuid) (db' : OrgDb) : MembershipCall → Prop
  | createOrganization _ _ _ =>
    ∃ org m, org.id = orgId ∧ m.organizationId = orgId ∧ ¬ db.hasOrganization orgId = true ∧
    db.MemberHasRole m RoleName.owner.name ∧
      (OrgOp.addMember m).check (db.addOrganization org) = .ok () ∧
      db' = (db.addOrganization org).addMember m
  | addMember o _ _ => orgId = o ∧ ∃ m, m.organizationId = orgId ∧ db' = db.addMember m
  | updateMemberRole o memberId role =>
    orgId = o ∧ ∃ m r, m ∈ db.members.rows ∧ m.id = memberId ∧ m.organizationId = orgId ∧
    r ∈ db.roles.rows ∧ r.name = role.name ∧
      (db.MemberHasRole m RoleName.owner.name → role ≠ .owner → 2 ≤ db.ownerCount orgId) ∧
        (db' = db ∨ db' = db.setMemberRole memberId r.id)
  | removeMember o memberId =>
    orgId = o ∧ ∃ m, m ∈ db.members.rows ∧ m.id = memberId ∧ m.organizationId = orgId ∧
    (db.MemberHasRole m RoleName.owner.name → 2 ≤ db.ownerCount orgId) ∧ db' = db.deleteMember memberId
  | deleteOrganization o => orgId = o ∧ ∃ ms : List OrganizationMember,
    (∀ m ∈ ms, m ∈ db.members.rows ∧ m.organizationId = orgId) ∧
      db' = (ms.foldl (fun db m => db.deleteMember m.id) db).deleteOrganization orgId

end MembershipCall

/-! ### The services -/

section
variable {cfg : Config} {α : Type} {s : Session managementTables.backend}

theorem Org.safe_ends {p : Org α} {Q : α → OrgDb → OrgDb → Prop} (hd : s.dirty = [])
    (h : Org.Safe (· = ·) p (fun a d w db => Q a db (applyAll orgTables.backend (w ++ d) db)) []
      [] s.db.orgs) :
    p.embed.Ends (fun a s' => Q a s.db.orgs (applyAll managementTables.backend s'.dirty s'.db).orgs)
        (fun _ _ => True) s := by
  obtain ⟨db, _, world, envs⟩ := s
  cases hd
  have hsafe := @Prog.Safe.embed _ managementTables.backend _ orgPart _ _ _ _ db h
  refine hsafe.ends.mono (fun a s' h => ?_) fun _ _ h => h
  obtain ⟨_, hdb, d, w, hd', rfl, hq⟩ := h
  rw [hd', hdb, ← applyAll_append, ← List.map_append]
  have horgs := orgPart.db_applyAll (w ++ d) db
  rw [show orgPart.op = ManagementOp.org from rfl] at horgs ⊢
  rw [show (applyAll managementTables.backend ((w ++ d).map ManagementOp.org) db).orgs = _ from horgs]
  exact hq

theorem loadMember_safe {memberId : Uuid} {k : OrganizationMember → Org α}
    {Q : α → List OrgOp → List OrgOp → OrgDb → Prop} {db : OrgDb}
    (h : ∀ m ∈ db.members.rows, Org.Safe (· = ·) (k m) Q [] [] db) :
        Org.Safe (· = ·) (loadMember memberId >>= k) Q [] [] db := by
  simp only [loadMember, Prog.bind_assoc']
  refine Prog.Safe.query_nil fun db₁ h₁ => ?_
  subst h₁
  split
  · trivial
  · rename_i m hm
    exact h m (Table.mem_of_one hm)

theorem MembershipCall.prog_ends (cfg : Config) (c : MembershipCall) (hd : s.dirty = []) :
    (c.prog cfg).Ends
    (fun orgId s' => c.Effect s.db.orgs orgId
        (applyAll managementTables.backend s'.dirty s'.db).orgs) (fun _ _ => True) s := by
  cases c with
  | createOrganization owner name slug =>
    refine (Management.OrganizationService.createOrganization_ends cfg owner name slug hd).bind ?_
    rintro org s₁ ⟨m, hcreates, h₁⟩
    refine ⟨org, m, rfl, hcreates.organizationId, hcreates.fresh, hcreates.role,
      hcreates.memberAdmitted, ?_⟩
    rw [h₁.committed]
    rfl
  | addMember orgId email role =>
    refine (Org.safe_ends
      (Q := fun _ db db' => ∃ m, m.organizationId = orgId ∧ db' = db.addMember m) hd ?_).bind
        fun _ _ h => ⟨rfl, h⟩
    rw [← Prog.bind_ret (OrganizationService.addMember cfg orgId email role)]
    refine addMember_safe .ofEq fun u r id row db' h' _ _ _ _ => ?_
    rintro _ rfl -
    exact ⟨_, rfl, rfl⟩
  | updateMemberRole orgId memberId role =>
    refine (Org.safe_ends
      (Q := fun _ db db' => ∃ m r, m ∈ db.members.rows ∧ m.id = memberId ∧
        m.organizationId = orgId ∧
      r ∈ db.roles.rows ∧ r.name = role.name ∧
        (db.MemberHasRole m RoleName.owner.name → role ≠ .owner → 2 ≤ db.ownerCount orgId) ∧
          (db' = db ∨ db' = db.setMemberRole memberId r.id)) hd ?_).bind fun _ _ h => ⟨rfl, h⟩
    refine loadMember_safe fun loaded hl => ?_
    rw [← Prog.bind_ret (OrganizationService.updateMemberRole loaded orgId memberId role)]
    refine updateMemberRole_safe .ofEq hl fun m r w row db' h' hm hr hname hguard hw => ?_
    rintro _ rfl -
    obtain ⟨hm, hid, ho⟩ := OrgDb.seen_eq.1 hm
    refine ⟨m, r, hm, hid, ho, hr, hname, fun hown hrole => OrgDb.seen_eq.1 (hguard hown hrole), ?_⟩
    rcases hw with ⟨rfl, -⟩ | rfl
    · exact .inl rfl
    · exact .inr rfl
  | removeMember orgId memberId =>
    refine (Org.safe_ends
      (Q := fun _ db db' => ∃ m, m ∈ db.members.rows ∧ m.id = memberId ∧ m.organizationId = orgId ∧
      (db.MemberHasRole m RoleName.owner.name → 2 ≤ db.ownerCount orgId) ∧
        db' = db.deleteMember memberId) hd ?_).bind
      fun _ _ h => ⟨rfl, h⟩
    refine loadMember_safe fun loaded hl => ?_
    rw [← Prog.bind_ret (OrganizationService.removeMember loaded orgId memberId)]
    refine removeMember_safe .ofEq hl fun m db' h' hm hguard => ?_
    rintro _ rfl -
    obtain ⟨hm, hid, ho⟩ := OrgDb.seen_eq.1 hm
    exact ⟨m, hm, hid, ho, fun hown => OrgDb.seen_eq.1 (hguard hown), rfl⟩
  | deleteOrganization orgId =>
    refine (Org.safe_ends
      (Q := fun _ db db' => ∃ ms : List OrganizationMember,
        (∀ m ∈ ms, m ∈ db.members.rows ∧ m.organizationId = orgId) ∧
      db' = (ms.foldl (fun db m => db.deleteMember m.id) db).deleteOrganization orgId) hd ?_).bind
        fun _ _ h => ⟨rfl, h⟩
    rw [← Prog.bind_ret (OrganizationService.deleteOrganization orgId)]
    refine deleteOrganization_safe .ofEq fun ms db' h' hms => ?_
    rintro _ rfl -
    refine ⟨ms, OrgDb.seen_eq.1 hms, ?_⟩
    have hdelete : applyAll orgTables.backend (ms.map fun m => .deleteMember m.id) db' =
        ms.foldl (fun db m => db.deleteMember m.id) db' := List.foldl_map ..
    rw [List.append_nil, applyAll_append, hdelete]
    rfl

end

/-! ### The owners -/

/-- Every organization has an owner. -/
def OrgDb.Owned (db : OrgDb) : Prop := ∀ o ∈ db.organizations.rows, db.HasOwner o.id

/-- No other membership is an owner's. -/
def OrgDb.OnlyOwner (db : OrgDb) (orgId : Uuid) (m : OrganizationMember) : Prop :=
  ∀ m', db.OwnerRow orgId m' ↔ m' = m

/-- The memberships of the other organizations are the same. -/
def OrgDb.SameElsewhere (orgId : Uuid) (db db' : OrgDb) : Prop :=
  ∀ m : OrganizationMember, m.organizationId ≠ orgId → (m ∈ db'.members.rows ↔ m ∈ db.members.rows)

section
variable {db db' : OrgDb} {orgId : Uuid} {m m' : OrganizationMember}

theorem OrgDb.mem_owners :
    (m ∈ db.members.select
      fun m => m.organizationId == orgId && decide (db.MemberHasRole m RoleName.owner.name)) ↔
    db.OwnerRow orgId m := by
  simp [Table.mem_select, OrgDb.OwnerRow]

/-- Of two owners one is another one than `m`. -/
theorem OrgDb.exists_other_owner (h : 2 ≤ db.ownerCount orgId) (m : OrganizationMember) : ∃ m',
    db.OwnerRow orgId m' ∧ m'.id ≠ m.id := by
  unfold OrgDb.ownerCount at h
  have hmem := fun m' => @OrgDb.mem_owners db orgId m'
  have hdistinct :=
    db.members.distinct.filter
      fun m => m.organizationId == orgId && decide (db.MemberHasRole m RoleName.owner.name)
  unfold Table.select at h hmem
  cases hl : db.members.rows.filter
      fun m => m.organizationId == orgId && decide (db.MemberHasRole m RoleName.owner.name) with
  | nil => simp [hl] at h
  | cons a l =>
    cases l with
    | nil => simp [hl] at h
    | cons b l =>
      rw [hl] at hmem hdistinct
      have hab : a.id ≠ b.id := fun he =>
        (List.pairwise_cons.1 hdistinct).1 b List.mem_cons_self
          (OrganizationMember.clash_iff.2 (.inl he))
      by_cases ha : a.id = m.id
      · exact ⟨b, (hmem b).1 (by simp), fun hb => hab (ha.trans hb.symm)⟩
      · exact ⟨a, (hmem a).1 (by simp), ha⟩

theorem OrgDb.onlyOwner_of_count (h : db.ownerCount orgId ≤ 1) (hm : db.OwnerRow orgId m) :
    db.OnlyOwner orgId m := by
  intro m'
  constructor
  · intro hm'
    obtain ⟨x, hx⟩ : ∃ x,
        db.members.select
            (fun m => m.organizationId == orgId && decide (db.MemberHasRole m RoleName.owner.name))
                = [x] :=
      List.length_eq_one_iff.1 (le_antisymm h (List.length_pos_of_mem (OrgDb.mem_owners.2 hm)))
    have hall : ∀ m, db.OwnerRow orgId m → m = x :=
      fun m hm => by simpa [hx] using OrgDb.mem_owners.2 hm
    rw [hall m' hm', hall m hm]
  · rintro rfl
    exact hm

theorem OrgDb.SameElsewhere.refl (orgId : Uuid) (db : OrgDb) : db.SameElsewhere orgId db :=
  fun _ _ => Iff.rfl

theorem OrgDb.SameElsewhere.trans {db'' : OrgDb} (h : db.SameElsewhere orgId db')
    (h' : db'.SameElsewhere orgId db'') :
    db.SameElsewhere orgId db'' := fun m hm => (h' m hm).trans (h m hm)

theorem mem_addMember_of_check (h : (OrgOp.addMember m).check db = .ok ()) :
    m ∈ (db.addMember m).members.rows := by
  have hcheck : m.Refers db.users db.organizations db.roles ∧ db.members.admits m = true := by
    simpa [OrgOp.check] using h
  unfold OrgDb.addMember
  rw [dif_pos hcheck.1]
  exact (Table.mem_insert hcheck.2).2 (.inr rfl)

theorem OrgDb.sameElsewhere_addMember (h : m.organizationId = orgId) :
    db.SameElsewhere orgId (db.addMember m) := by
  intro m' hm'
  unfold OrgDb.addMember
  split
  · constructor
    · intro hmem
      rcases Table.mem_or_eq_of_mem_insert hmem with hmem | rfl
      · exact hmem
      · exact absurd h hm'
    · exact Table.mem_insert_of_mem
  · rfl

theorem OrgDb.sameElsewhere_setMemberRole {roleId : Uuid} (hm : m ∈ db.members.rows)
    (h : m.organizationId = orgId) :
    db.SameElsewhere orgId (db.setMemberRole m.id roleId) := by
  intro m' hm'
  by_cases hr : db.hasRole roleId = true
  · rw [mem_members_setMemberRole hr]
    constructor
    · rintro ⟨m₀, hm₀, he⟩
      split at he
      · rename_i hid
        rw [OrgDb.member_eq hm₀ hm hid] at he
        exact absurd (he ▸ h) hm'
      · exact he ▸ hm₀
    · refine fun hmem => ⟨m', hmem, if_neg fun hid => hm' ?_⟩
      rwa [OrgDb.member_eq hmem hm hid]
  · unfold OrgDb.setMemberRole
    rw [dif_neg hr]

theorem OrgDb.sameElsewhere_deleteMember
    (hm : ∀ m' ∈ db.members.rows, m'.id = m.id → m'.organizationId = orgId) :
    db.SameElsewhere orgId (db.deleteMember m.id) := by
  intro m' hm'
  rw [mem_members_deleteMember]
  exact and_iff_left_of_imp fun hmem hid => hm' (hm m' hmem hid)

theorem OrgDb.sameElsewhere_deleteMembers (ms : List OrganizationMember)
    (hms : ∀ m ∈ ms, ∀ m' ∈ db.members.rows, m'.id = m.id → m'.organizationId = orgId) :
    db.SameElsewhere orgId (ms.foldl (fun db m => db.deleteMember m.id) db) := by
  induction ms generalizing db with
  | nil => exact .refl _ _
  | cons m ms ih =>
    refine (sameElsewhere_deleteMember (hms m List.mem_cons_self)).trans (ih fun m₁ hm₁ m' hm' => ?_)
    exact hms m₁ (List.mem_cons_of_mem _ hm₁) m' (mem_members_deleteMember.1 hm').1

theorem OrgDb.sameElsewhere_deleteOrganization :
    db.SameElsewhere orgId (db.deleteOrganization orgId) := by
  intro m hm
  simp [OrgDb.deleteOrganization, Table.mem_delete, hm]

theorem OrgDb.HasOwner.elsewhere {o : Uuid} (h : db.HasOwner o) (hne : o ≠ orgId)
    (hroles : db'.roles = db.roles) (hsame : db.SameElsewhere orgId db') : db'.HasOwner o := by
  obtain ⟨m, hm, ho, howner⟩ := h
  exact ⟨m, (hsame m (ho ▸ hne)).2 hm, ho, (memberHasRole_congr hroles rfl).2 howner⟩

theorem OrgDb.deleteMembers_roles (ms : List OrganizationMember) (db : OrgDb) :
    (ms.foldl (fun db m => db.deleteMember m.id) db).roles = db.roles := by
  induction ms generalizing db with
  | nil => rfl
  | cons m ms ih => exact ih _

theorem OrgDb.deleteMembers_organizations (ms : List OrganizationMember) (db : OrgDb) :
    (ms.foldl (fun db m => db.deleteMember m.id) db).organizations = db.organizations := by
  induction ms generalizing db with
  | nil => rfl
  | cons m ms ih => exact ih _

end

namespace MembershipCall.Effect

variable {c : MembershipCall} {db db' : OrgDb} {orgId : Uuid}

theorem sameElsewhere (h : c.Effect db orgId db') : db.SameElsewhere orgId db' := by
  cases c with
  | createOrganization owner name slug =>
    obtain ⟨org, m, -, ho, -, -, -, rfl⟩ := h
    exact @OrgDb.sameElsewhere_addMember (db.addOrganization org) _ _ ho
  | addMember o email role =>
    obtain ⟨-, m, ho, rfl⟩ := h
    exact OrgDb.sameElsewhere_addMember ho
  | updateMemberRole o memberId role =>
    obtain ⟨-, m, r, hm, rfl, ho, -, -, -, rfl | rfl⟩ := h
    · exact .refl _ _
    · exact OrgDb.sameElsewhere_setMemberRole hm ho
  | removeMember o memberId =>
    obtain ⟨-, m, hm, rfl, ho, -, rfl⟩ := h
    exact OrgDb.sameElsewhere_deleteMember fun m' hm' hid => OrgDb.member_eq hm' hm hid ▸ ho
  | deleteOrganization o =>
    obtain ⟨-, ms, hms, rfl⟩ := h
    refine (OrgDb.sameElsewhere_deleteMembers ms fun m hm m' hm' hid => ?_).trans
      OrgDb.sameElsewhere_deleteOrganization
    rw [OrgDb.member_eq hm' (hms m hm).1 hid]
    exact (hms m hm).2

theorem roles (h : c.Effect db orgId db') : db'.roles = db.roles := by
  cases c with
  | createOrganization owner name slug =>
    obtain ⟨org, m, -, -, -, -, -, rfl⟩ := h
    exact (OrgOp.addMember m).apply_roles (db.addOrganization org)
  | addMember o email role =>
    obtain ⟨-, m, -, rfl⟩ := h
    exact (OrgOp.addMember m).apply_roles db
  | updateMemberRole o memberId role =>
    obtain ⟨-, m, r, -, -, -, -, -, -, rfl | rfl⟩ := h
    · rfl
    · exact (OrgOp.setMemberRole memberId r.id).apply_roles db
  | removeMember o memberId =>
    obtain ⟨-, m, -, -, -, -, rfl⟩ := h
    rfl
  | deleteOrganization o =>
    obtain ⟨-, ms, -, rfl⟩ := h
    exact OrgDb.deleteMembers_roles ms db

/-- The organizations afterwards were there, but for the one that the call is for. -/
theorem organizations (h : c.Effect db orgId db') : ∀ o ∈ db'.organizations.rows, o.id = orgId ∨
    o ∈ db.organizations.rows := by
  intro o ho
  cases c with
  | createOrganization owner name slug =>
    obtain ⟨org, m, rfl, -, -, -, -, rfl⟩ := h
    rw [show ((db.addOrganization org).addMember m).organizations =
        (db.addOrganization org).organizations from
      OrgOp.Spares.apply (o := .addMember m) trivial _] at ho
    rcases Table.mem_or_eq_of_mem_insert ho with ho | rfl
    · exact .inr ho
    · exact .inl rfl
  | addMember orgId' email role =>
    obtain ⟨-, m, -, rfl⟩ := h
    rw [show (db.addMember m).organizations = db.organizations from OrgOp.Spares.apply
      (o := .addMember m) trivial _] at ho
    exact .inr ho
  | updateMemberRole orgId' memberId role =>
    obtain ⟨-, m, r, -, -, -, -, -, -, rfl | rfl⟩ := h
    · exact .inr ho
    · rw [show (db.setMemberRole memberId r.id).organizations = db.organizations from
        OrgOp.Spares.apply (o := .setMemberRole memberId r.id) trivial _] at ho
      exact .inr ho
  | removeMember orgId' memberId =>
    obtain ⟨-, m, -, -, -, -, rfl⟩ := h
    exact .inr ho
  | deleteOrganization orgId' =>
    obtain ⟨-, ms, -, rfl⟩ := h
    have hmem := (Table.mem_delete.1 ho).1
    rw [OrgDb.deleteMembers_organizations] at hmem
    exact .inr hmem

/-- The organization that the call is for has an owner if it is there. -/
theorem hasOwner (h : c.Effect db orgId db') (howned : db.Owned) {o : Organization}
    (ho : o ∈ db'.organizations.rows) (hid : o.id = orgId) :
    db'.HasOwner orgId := by
  cases c with
  | createOrganization owner name slug =>
    obtain ⟨org, m, rfl, horg, -, hrole, hcheck, rfl⟩ := h
    refine ⟨m, mem_addMember_of_check hcheck, horg, ?_⟩
    exact (memberHasRole_congr ((OrgOp.addMember m).apply_roles (db.addOrganization org)) rfl).2 hrole
  | addMember orgId' email role =>
    obtain ⟨-, m, -, rfl⟩ := h
    rw [show (db.addMember m).organizations = db.organizations from OrgOp.Spares.apply
      (o := .addMember m) trivial _] at ho
    exact (hid ▸ howned o ho).addMember
  | updateMemberRole orgId' memberId role =>
    obtain ⟨-, m, r, hm, rfl, horg, hr, hname, hguard, rfl | rfl⟩ := h
    · exact hid ▸ howned o ho
    · rw [show (db.setMemberRole m.id r.id).organizations = db.organizations from
        OrgOp.Spares.apply (o := .setMemberRole m.id r.id) trivial _] at ho
      refine (hasOwner_setMemberRole hr (hid ▸ howned o ho)).2 fun m' hm' ⟨hmid, hnot⟩ => ?_
      obtain rfl := OrgDb.member_eq hm'.1 hm hmid
      refine OrgDb.exists_other_owner (hguard hm'.2.2 fun hrole => hnot ⟨r, hr, rfl, ?_⟩) m'
      rw [hname, hrole]
  | removeMember orgId' memberId =>
    obtain ⟨-, m, hm, rfl, horg, hguard, rfl⟩ := h
    refine (hasOwner_deleteMember (hid ▸ howned o ho)).2 fun m' hm' hmid => ?_
    obtain rfl := OrgDb.member_eq hm'.1 hm hmid
    exact OrgDb.exists_other_owner (hguard hm'.2.2) m'
  | deleteOrganization orgId' =>
    obtain ⟨rfl, ms, -, rfl⟩ := h
    exact absurd (beq_iff_eq.2 hid) (Table.mem_delete.1 ho).2

theorem owned (h : c.Effect db orgId db') (howned : db.Owned) : db'.Owned := by
  intro o ho
  by_cases hid : o.id = orgId
  · exact hid ▸ h.hasOwner howned ho hid
  · exact (howned o ((h.organizations o ho).resolve_left hid)).elsewhere hid h.roles h.sameElsewhere

end MembershipCall.Effect

/-! ### What is refused -/

/-- The built-in roles are there, as `seed_rbac` makes sure at every start of the application. -/
def OrgDb.Seeded (db : OrgDb) : Prop := ∀ role : RoleName, ∃ r ∈ db.roles.rows, r.name = role.name

section
variable {s : Session orgTables.backend} {orgId : Uuid} {m : OrganizationMember} {owner : Role}
    {α : Type} {k : Unit → Org α}
  {Q : α → Session orgTables.backend → Prop}

theorem loadMember_eval (hm : m ∈ s.db.members.rows) : (loadMember m.id).eval s = (.ok m, s) := by
  have hone : (s.db.members.one fun m' => m'.id == m.id) = some m :=
    Table.one_eq_some hm (by simp)
      fun m' hm' => OrganizationMember.clash_iff.2 (.inl (by simpa using hm'))
  simp [loadMember, hone]

theorem getMember_eval (h : m.organizationId = orgId) :
    (OrganizationService.getMember m orgId m.id).eval s = (.ok m, s) := by
  simp [OrganizationService.getMember, MembershipRepository.get, h]

theorem roleId_eval (h : s.db.Seeded) (role : RoleName) :
    ∃ r ∈ s.db.roles.rows, r.name = role.name ∧ (OrganizationService.roleId role).eval s =
        (.ok r.id, s) := by
  obtain ⟨r, hr, hname⟩ := h role
  have hone : (s.db.roles.one fun r => r.name == role.name) = some r :=
    Table.one_eq_some hr (by simpa using hname) fun r' hr' => Role.clash_iff.2 (.inr (by simp_all))
  refine ⟨r, hr, hname, ?_⟩
  simp [OrganizationService.roleId, RoleRepository.getByName, hone]

theorem hydrate_eval (h : ∃ m' ∈ s.db.members.rows, m'.id = m.id) : ∃ row,
    (OrganizationService.hydrate m).eval s = (.ok row, s) := by
  obtain ⟨m', hm', hid⟩ := h
  have hone : (s.db.members.one fun m₁ => m₁.id == m.id) = some m' :=
    Table.one_eq_some hm' (by simpa using hid)
      fun m₁ hm₁ => OrganizationMember.clash_iff.2 (.inl (by simp_all))
  obtain ⟨-, ⟨u, hu, huid⟩, r, hr, hrid⟩ := s.db.refers m' hm'
  have huser : (s.db.users.one fun u => u.id == m'.userId) = some u :=
    Table.one_eq_some hu (by simpa using huid) fun u' hu' => User.clash_iff.2 (.inl (by simp_all))
  have hrole : (s.db.roles.one fun r => r.id == m'.roleId) = some r :=
    Table.one_eq_some hr (by simpa using hrid) fun r' hr' => Role.clash_iff.2 (.inl (by simp_all))
  exact ⟨(u, r), by simp [OrganizationService.hydrate, hone, huser, hrole]⟩

theorem refuseLastOwner_refused {message : String} (hr : owner ∈ s.db.roles.rows)
    (hn : owner.name = RoleName.owner.name) (hm : m ∈ s.db.members.rows)
    (ho : m.organizationId = orgId) (hrole : m.roleId = owner.id)
    (hk : (k ()).Ends Q (fun _ _ => s.db.OnlyOwner orgId m) s) :
    (OrganizationService.refuseLastOwner orgId owner.id message >>= k).Ends Q
        (fun _ _ => s.db.OnlyOwner orgId m) s := by
  simp only [OrganizationService.refuseLastOwner, MembershipRepository.countWithRole, Prog.bind_assoc']
  refine Prog.ends_query_bind ?_
  split
  · rename_i hc
    rw [← OrgDb.ownerCount_eq hr hn] at hc
    exact OrgDb.onlyOwner_of_count hc ⟨hm, ho, (OrgDb.memberHasRole_iff hr hn).2 hrole⟩
  · exact hk

theorem updateMemberRoleOf_refused {role : RoleName} (hs : s.db.Seeded) (hd : s.dirty = [])
    (hm : m ∈ s.db.members.rows) (ho : m.organizationId = orgId) :
      (updateMemberRoleOf orgId m.id role).Ends (fun _ s' => s'.dirty = [])
      (fun _ _ => s.db.OnlyOwner orgId m) s := by
  have finish : Prog.Ends (do
        let newRoleId ← OrganizationService.roleId role
        if m.roleId ≠ newRoleId then .set (.setMemberRole m.id newRoleId)
        .flushSession
        let row ← OrganizationService.hydrate m
        return ({ m with roleId := newRoleId }, row) : Org (OrganizationMember × User × Role))
      (fun _ s' => s'.dirty = []) (fun _ _ => s.db.OnlyOwner orgId m) s := by
    obtain ⟨r, hr, -, he⟩ := roleId_eval hs role
    refine Prog.ends_bind_ok he ?_
    -- the flush of what is pending, and the reload
    have reload : ∀ (s' : Session orgTables.backend) (db : OrgDb),
        flushAll orgTables.backend s'.dirty s'.db = .ok db →
        (∃ m' ∈ db.members.rows, m'.id = m.id) → Prog.Ends (do
          .flushSession
          let row ← OrganizationService.hydrate m
          return ({ m with roleId := r.id }, row) : Org (OrganizationMember × User × Role))
        (fun _ s' => s'.dirty = []) (fun _ _ => s.db.OnlyOwner orgId m) s' := by
      intro s' db hflush hmem
      refine (Prog.ends_flush (Q := fun _ s₁ => s₁ = { s' with db := db, dirty := [] }) hflush
        rfl).bind fun _ s₁ h₁ => ?_
      obtain ⟨row, he⟩ := hydrate_eval (s := s₁) (m := m) (h₁ ▸ hmem)
      exact Prog.ends_bind_ok he (h₁ ▸ rfl)
    dsimp only
    split
    · have hrole : s.db.hasRole r.id = true := List.any_eq_true.2 ⟨r, hr, beq_self_eq_true r.id⟩
      have hmember : s.db.hasMember m.id = true := List.any_eq_true.2 ⟨m, hm, beq_self_eq_true m.id⟩
      refine Prog.ends_bind_ok rfl
        (reload _ (s.db.setMemberRole m.id r.id) ?_
          ⟨_, (mem_members_setMemberRole hrole).2 ⟨m, hm, rfl⟩, ?_⟩)
      · simp only [hd, List.nil_append, flushAll, OrgOp.check, hrole, hmember]
        rfl
      · split <;> rfl
    · exact reload s s.db (hd ▸ rfl) ⟨m, hm, rfl⟩
  unfold updateMemberRoleOf OrganizationService.updateMemberRole
  refine Prog.ends_bind_ok (loadMember_eval hm) (Prog.ends_bind_ok (getMember_eval ho) ?_)
  obtain ⟨owner, howner, hname, he⟩ := roleId_eval hs .owner
  refine Prog.ends_bind_ok he ?_
  dsimp only
  split
  · rename_i hc
    exact refuseLastOwner_refused howner hname hm ho hc.1 finish
  · exact finish

theorem removeMemberOf_refused (hs : s.db.Seeded) (hd : s.dirty = []) (hm : m ∈ s.db.members.rows)
    (ho : m.organizationId = orgId) : (removeMemberOf orgId m.id).Ends (fun _ s' => s'.dirty = [])
      (fun _ _ => s.db.OnlyOwner orgId m) s := by
  have finish : (MembershipRepository.delete m).Ends (fun _ s' => s'.dirty = [])
      (fun _ _ => s.db.OnlyOwner orgId m) s := by
    unfold MembershipRepository.delete
    refine Prog.ends_bind_ok rfl (@Prog.ends_flush _ _ _ (s.db.deleteMember m.id) _ ?_ rfl)
    rw [hd]
    rfl
  unfold removeMemberOf OrganizationService.removeMember
  refine Prog.ends_bind_ok (loadMember_eval hm) (Prog.ends_bind_ok (getMember_eval ho) ?_)
  obtain ⟨owner, howner, hname, he⟩ := roleId_eval hs .owner
  refine Prog.ends_bind_ok he ?_
  dsimp only
  split
  · rename_i hc
    exact refuseLastOwner_refused howner hname hm ho hc finish
  · exact finish

end

/-! ### Every run -/

/-- A call in its own transaction, with what its effects read from outside. -/
abbrev MembershipCall.scope (cfg : Config) (s : ManagementState)
    (c : MembershipCall × (Nat → Env PlatformInput)) :
    Except Failure Uuid × ManagementState := Kit.scope (c.1.prog cfg) c.2 s

/-- The organization that a call returning `orgId` is for. -/
def MembershipCall.IsFor (db : OrgDb) (orgId : Uuid) : MembershipCall → Prop
  | createOrganization _ _ _ => ¬ db.hasOrganization orgId = true
  | addMember o _ _ => orgId = o
  | updateMemberRole o _ _ => orgId = o
  | removeMember o _ => orgId = o
  | deleteOrganization o => orgId = o

/-- The call demotes or removes the member of the organization. -/
def MembershipCall.Affects (orgId memberId : Uuid) : MembershipCall → Prop
  | updateMemberRole o m _ => o = orgId ∧ m = memberId
  | removeMember o m => o = orgId ∧ m = memberId
  | _ => False

section
variable {cfg : Config} {s s' : ManagementState} {c : MembershipCall × (Nat → Env PlatformInput)}
    {orgId : Uuid} {e : Failure}

theorem MembershipCall.Effect.isFor {c : MembershipCall} {db db' : OrgDb}
    (h : c.Effect db orgId db') : c.IsFor db orgId := by
  cases c with
  | createOrganization owner name slug =>
    obtain ⟨org, m, -, -, hnew, -⟩ := h
    exact hnew
  | _ => exact h.1

theorem MembershipCall.scope_ok (h : MembershipCall.scope cfg s c = (.ok orgId, s')) :
    c.1.Effect s.db.orgs orgId s'.db.orgs := by
  have hends := MembershipCall.prog_ends (s := ⟨s.db, [], s.world, c.2⟩) cfg c.1 rfl
  rcases hends.scope with ⟨o, s₁, db, heffect, hflush, hscope⟩ | ⟨e, s₁, -, hscope⟩
  · cases h.symm.trans hscope
    exact flushAll_eq hflush ▸ heffect
  · cases h.symm.trans hscope

theorem MembershipCall.scope_error (h : MembershipCall.scope cfg s c = (.error e, s')) :
    s'.db = s.db := by
  have hdb := Kit.scope_error (congrArg Prod.fst h)
  exact (congrArg (·.2.db) h).symm.trans hdb

theorem MembershipCall.scope_owned (h : s.db.orgs.Owned)
    (c : MembershipCall × (Nat → Env PlatformInput)) :
    (MembershipCall.scope cfg s c).2.db.orgs.Owned ∧
        (MembershipCall.scope cfg s c).2.db.orgs.roles = s.db.orgs.roles := by
  cases hscope : MembershipCall.scope cfg s c with
  | mk r s' =>
    cases r with
    | ok orgId => exact ⟨(scope_ok hscope).owned h, (scope_ok hscope).roles⟩
    | error e =>
      rw [scope_error hscope]
      exact ⟨h, rfl⟩

/-- A program that is refused only to an only owner, in the transaction of a call. -/
theorem MembershipCall.refused {α : Type} {p : Org α} {a : Uuid}
    {envs : Nat → Env PlatformInput} {P : Prop}
    (h : p.Ends (fun _ s' => s'.dirty = []) (fun _ _ => P)
      (orgPart.session (⟨s.db, [], s.world, envs⟩ : Session managementTables.backend) []))
    (he : Kit.scope (do
      let _ ← p.embed
      return a : Management Uuid) envs s = (.error e, s')) : P := by
  have hends : Prog.Ends (do
      let _ ← p.embed
      return a : Management Uuid) (fun _ s' => s'.dirty = []) (fun _ _ => P) ⟨s.db, [],
          s.world, envs⟩ := by
    refine ((Prog.Ends.embed (C := managementTables.backend) orgPart (d := []) rfl h).mono
      (fun _ _ h => h) ?_).bind ?_
    · exact fun _ _ ⟨_, _, _, _, hp⟩ => hp
    · rintro _ s₁ ⟨d, hd, hnil⟩
      rw [show d = [] from hnil] at hd
      exact hd
  rcases hends.scope with ⟨_, _, _, _, _, hscope⟩ | ⟨_, s₁, hp | ⟨_, hd, hflush⟩, -⟩
  · cases he.symm.trans hscope
  · exact hp
  · rw [hd] at hflush
    cases hflush

theorem MembershipCall.scope_refused {m : OrganizationMember} (hs : s.db.orgs.Seeded)
    (hm : m ∈ s.db.orgs.members.rows) (hc : c.1.Affects m.organizationId m.id)
    (h : MembershipCall.scope cfg s c = (.error e, s')) :
    s.db.orgs.OnlyOwner m.organizationId m := by
  obtain ⟨c, envs⟩ := c
  cases c with
  | createOrganization owner name slug => exact hc.elim
  | addMember o email role => exact hc.elim
  | updateMemberRole o memberId role =>
    obtain ⟨rfl, rfl⟩ := hc
    exact refused
      (updateMemberRoleOf_refused (s := orgPart.session ⟨s.db, [], s.world, envs⟩ []) hs rfl hm rfl)
        h
  | removeMember o memberId =>
    obtain ⟨rfl, rfl⟩ := hc
    exact refused
      (removeMemberOf_refused (s := orgPart.session ⟨s.db, [], s.world, envs⟩ []) hs rfl hm rfl) h
  | deleteOrganization o => exact hc.elim

end

/-- What holds of the memberships in every state. -/
structure OrgDb.Sound (db : OrgDb) : Prop where
  owned : db.Owned
  unique : ∀ m ∈ db.members.rows, ∀ m' ∈ db.members.rows, m.organizationId = m'.organizationId →
    m.userId = m'.userId → m = m'

/-- What a call does to the memberships. -/
structure MembershipCall.Respects (cfg : Config) (s : ManagementState)
    (c : MembershipCall × (Nat → Env PlatformInput)) : Prop where
  rollback : ∀ e s', MembershipCall.scope cfg s c = (.error e, s') →
    s'.db.orgs.members = s.db.orgs.members
  elsewhere : ∀ orgId s', MembershipCall.scope cfg s c = (.ok orgId, s') →
    c.1.IsFor s.db.orgs orgId ∧ s.db.orgs.SameElsewhere orgId s'.db.orgs
  refused : s.db.orgs.Seeded → ∀ m ∈ s.db.orgs.members.rows, c.1.Affects m.organizationId m.id →
    ∀ e s', MembershipCall.scope cfg s c = (.error e, s') → s.db.orgs.OnlyOwner m.organizationId m

/-- In every run of calls, in every state, each organization has an owner and a user at most one
membership of it; a call that raises changes no membership, one that returns changes those of its
organization only, and a member is refused a demotion or a removal only as the only owner. -/
theorem memberships_sound (cfg : Config) (s : ManagementState) (h : s.db.orgs.Owned)
    (calls : List (MembershipCall × (Nat → Env PlatformInput))) :
    let s' := calls.foldl (fun s c => (MembershipCall.scope cfg s c).2) s
    s'.db.orgs.Sound ∧ (∀ c, MembershipCall.Respects cfg s' c) ∧
      (s.db.orgs.Seeded → s'.db.orgs.Seeded) := by
  induction calls generalizing s with
  | nil =>
    refine ⟨⟨h, fun m hm m' hm' ho hu => OrgDb.member_unique hm hm' ho hu⟩,
      fun c => ⟨fun e s' he => ?_, fun orgId s' hok => ?_, ?_⟩, fun hs => hs⟩
    · rw [MembershipCall.scope_error he]
    · exact ⟨(MembershipCall.scope_ok hok).isFor, (MembershipCall.scope_ok hok).sameElsewhere⟩
    · exact fun hs m hm hc e s' he => MembershipCall.scope_refused hs hm hc he
  | cons c calls ih =>
    obtain ⟨howned, hroles⟩ := @MembershipCall.scope_owned cfg _ h c
    obtain ⟨hsound, hrespects, hseeded⟩ := ih _ howned
    refine ⟨hsound, hrespects, fun hs => hseeded fun role => ?_⟩
    obtain ⟨r, hr, hname⟩ := hs role
    exact ⟨r, hroles ▸ hr, hname⟩

/-- Before the first organization. -/
def emptyManagement : ManagementState :=
  ⟨.initial (sampleOrgDb .owner).users (sampleOrgDb .owner).roles, sampleGatewayWorld⟩

/-- The first user creates an organization, adds the second one and tries to leave. -/
def sampleMembershipCalls : List (MembershipCall × (Nat → Env PlatformInput)) :=
  [.createOrganization sampleUser "acme" none, .addMember 100 "bob@example.com" .developer,
    .removeMember 100 101].map
    fun c => (c, fun _ => sampleGatewayEnv 1)

theorem memberships_sound_acme : emptyManagement.db.orgs.Owned ∧
    let s' := sampleMembershipCalls.foldl (fun s c => (MembershipCall.scope sampleConfig s c).2)
      emptyManagement
    s'.db.orgs.Sound ∧ (∀ c, MembershipCall.Respects sampleConfig s' c) ∧
        (emptyManagement.db.orgs.Seeded → s'.db.orgs.Seeded) := by
  have howned : emptyManagement.db.orgs.Owned := fun o ho => (List.not_mem_nil ho).elim
  exact ⟨howned, memberships_sound sampleConfig emptyManagement howned sampleMembershipCalls⟩

end TrafficPlatform
