import TrafficPlatform.Organizations.Writes

/-!
# The last owner under concurrency

`update_member_role` and `remove_member` count the owners and write another row afterwards, so two
transactions can each count on the owner that the other one is about to change. The organization
keeps an owner in every committed state exactly when no transaction commits a write that unseats an
owner while no other owner is committed (`LeavesOwner`).
-/

namespace TrafficPlatform
open Kit

/-- An `add_member`, `update_member_role` or `remove_member` call. -/
def OrgRequest.Membership : OrgRequest → Prop
  | .addMember _ _ _ _ => True
  | .updateMemberRole _ _ _ _ => True
  | .removeMember _ _ _ => True
  | _ => False

/-- The organization has an owner. -/
def OrgDb.HasOwner (db : OrgDb) (orgId : Uuid) : Prop := ∃ m, db.OwnerRow orgId m

/-- The write takes the owner role from the membership `m` of an owner. -/
def OrgOp.Unseats (db : OrgDb) (m : OrganizationMember) : OrgOp → Prop
  | .setMemberRole id roleId =>
    m.id = id ∧ ¬ ∃ r ∈ db.roles.rows, r.id = roleId ∧ r.name = RoleName.owner.name
  | .deleteMember id => m.id = id
  | _ => False

/-- If the event commits writes that unseat a committed owner of the organization, another owner of it
is committed. -/
def LeavesOwner (orgId : Uuid) (s : OrgSystem) (e : OrgEvent) : Prop :=
  ∀ r a w, s.commits e = some (r, a, w) → ∀ o ∈ w, ∀ m, s.db.OwnerRow orgId m → o.Unseats s.db m →
    ∃ m', s.db.OwnerRow orgId m' ∧ m'.id ≠ m.id

variable {cfg : Config} {db : OrgDb} {orgId id roleId : Uuid} {m m' : OrganizationMember} {r : Role}

/-! ### One write -/

theorem mem_members_setMemberRole (hr : db.hasRole roleId = true) :
    m' ∈ (db.setMemberRole id roleId).members.rows ↔ ∃ m ∈ db.members.rows,
      (if m.id = id then { m with roleId := roleId } else m) = m' := by
  simp [OrgDb.setMemberRole, hr, Table.mem_update]

theorem mem_members_deleteMember : m ∈ (db.deleteMember id).members.rows ↔ m ∈ db.members.rows ∧
    m.id ≠ id := by
  simp [OrgDb.deleteMember, Table.mem_delete]

theorem memberHasRole_congr {db' : OrgDb} {name : String} (h : db'.roles = db.roles)
    (hr : m'.roleId = m.roleId) :
    db'.MemberHasRole m' name ↔ db.MemberHasRole m name := by
  simp only [OrgDb.MemberHasRole, h, hr]

/-- A role change keeps an owner exactly when it unseats none or another one is left. -/
theorem hasOwner_setMemberRole (hr : r ∈ db.roles.rows) (h : db.HasOwner orgId) :
    (db.setMemberRole id r.id).HasOwner orgId ↔ ∀ m, db.OwnerRow orgId m →
      (OrgOp.setMemberRole id r.id).Unseats db m → ∃ m', db.OwnerRow orgId m' ∧ m'.id ≠ m.id := by
  have hroles : (db.setMemberRole id r.id).roles = db.roles :=
    (OrgOp.setMemberRole id r.id).apply_roles db
  have hmem : ∀ m', m' ∈ (db.setMemberRole id r.id).members.rows ↔ ∃ m ∈ db.members.rows,
      (if m.id = id then { m with roleId := r.id } else m) = m' :=
    fun _ => mem_members_setMemberRole (List.any_eq_true.2 ⟨r, hr, beq_self_eq_true r.id⟩)
  constructor
  · rintro ⟨m', hm', ho, howner⟩ m hm ⟨hid, hnot⟩
    obtain ⟨m₀, hm₀, rfl⟩ := (hmem m').1 hm'
    split at ho
    · rename_i h₀
      rw [if_pos h₀] at howner
      exact absurd (by simpa only [OrgDb.MemberHasRole, hroles] using howner) hnot
    · rename_i h₀
      rw [if_neg h₀, memberHasRole_congr hroles rfl] at howner
      exact ⟨m₀, ⟨hm₀, ho, howner⟩, fun he => h₀ (he.trans hid)⟩
  · intro hleft
    -- an owner whose row the write leaves alone, or makes an owner again
    have keep : ∀ m, db.OwnerRow orgId m → ¬ (OrgOp.setMemberRole id r.id).Unseats db m →
        (db.setMemberRole id r.id).HasOwner orgId := by
      rintro m ⟨hm, ho, howner⟩ hun
      refine ⟨_, (hmem _).2 ⟨m, hm, rfl⟩, ?_⟩
      split
      · rename_i hid
        refine ⟨ho, ?_⟩
        simp only [OrgDb.MemberHasRole, hroles]
        by_contra hne
        exact hun ⟨hid, hne⟩
      · exact ⟨ho, (memberHasRole_congr hroles rfl).2 howner⟩
    obtain ⟨m, hm⟩ := h
    by_cases hun : (OrgOp.setMemberRole id r.id).Unseats db m
    · obtain ⟨m', hm', hne⟩ := hleft m hm hun
      exact keep m' hm' fun hun' => hne (hun'.1.trans hun.1.symm)
    · exact keep m hm hun

theorem hasOwner_deleteMember (h : db.HasOwner orgId) :
    (db.deleteMember id).HasOwner orgId ↔ ∀ m, db.OwnerRow orgId m →
      (OrgOp.deleteMember id).Unseats db m → ∃ m', db.OwnerRow orgId m' ∧ m'.id ≠ m.id := by
  constructor
  · rintro ⟨m', hm', ho, howner⟩ m hm rfl
    obtain ⟨hm', hne⟩ := mem_members_deleteMember.1 hm'
    exact ⟨m', ⟨hm', ho, howner⟩, hne⟩
  · intro hleft
    obtain ⟨m, hm⟩ := h
    by_cases hid : m.id = id
    · obtain ⟨m', ⟨hm', ho⟩, hne⟩ := hleft m hm hid
      exact ⟨m', mem_members_deleteMember.2 ⟨hm', hid ▸ hne⟩, ho⟩
    · exact ⟨m, mem_members_deleteMember.2 ⟨hm.1, hid⟩, hm.2⟩

theorem OrgDb.HasOwner.addMember (h : db.HasOwner orgId) : (db.addMember m).HasOwner orgId := by
  obtain ⟨m₀, hm₀, ho⟩ := h
  have hroles : (db.addMember m).roles = db.roles := (OrgOp.addMember m).apply_roles db
  refine ⟨m₀, ?_, ho.1, (memberHasRole_congr hroles rfl).2 ho.2⟩
  unfold OrgDb.addMember
  split
  · exact Table.mem_insert_of_mem hm₀
  · exact hm₀

/-- A membership call keeps an owner exactly when none of its writes unseats the only one. -/
theorem OrgRequest.Writes.hasOwner {R : OrgDb → OrgDb → Prop} {q : OrgRequest} {w : List OrgOp}
    (hq : q.Membership) (hw : q.Writes cfg R w db) (h : db.HasOwner orgId) :
    (applyAll orgTables.backend w db).HasOwner orgId ↔ ∀ o ∈ w, ∀ m, db.OwnerRow orgId m →
      o.Unseats db m →
      ∃ m', db.OwnerRow orgId m' ∧ m'.id ≠ m.id := by
  cases q with
  | updateOrganization caller o name => exact hq.elim
  | deleteOrganization caller o => exact hq.elim
  | addMember caller o email role =>
    obtain ⟨-, u, r, id, n, -, -, -, -, rfl⟩ := hw
    refine ⟨fun _ o ho m _ hun => ?_, fun _ => h.addMember⟩
    simp only [List.mem_cons, List.not_mem_nil, or_false] at ho
    rcases ho with rfl | rfl <;> exact hun.elim
  | updateMemberRole caller o memberId role =>
    obtain ⟨-, m, r, -, hr, -, -, ⟨rfl, -⟩ | rfl⟩ := hw
    · exact ⟨fun _ o ho => (List.not_mem_nil ho).elim, fun _ => h⟩
    · rw [List.forall_mem_singleton]
      exact hasOwner_setMemberRole hr h
  | removeMember caller o memberId =>
    obtain ⟨-, m, -, -, rfl⟩ := hw
    rw [List.forall_mem_singleton]
    exact hasOwner_deleteMember h

/-- The write leaves the organizations alone. -/
def OrgOp.Spares : OrgOp → Prop
  | .setOrganizationName _ _ => False
  | .deleteOrganization _ => False
  | _ => True

theorem OrgOp.Spares.apply {o : OrgOp} (h : o.Spares) (db : OrgDb) :
    (o.apply db).organizations = db.organizations := by
  cases o with
  | setOrganizationName id name => exact h.elim
  | deleteOrganization id => exact h.elim
  | addMember m => simp only [OrgOp.apply, OrgDb.addMember]; split <;> rfl
  | setMemberRole id roleId => simp only [OrgOp.apply, OrgDb.setMemberRole]; split <;> rfl
  | deleteMember id => rfl
  | addNotification n => rfl

theorem OrgRequest.Writes.spares {R : OrgDb → OrgDb → Prop} {q : OrgRequest} {w : List OrgOp}
    (hq : q.Membership) (hw : q.Writes cfg R w db) : ∀ o ∈ w, o.Spares := by
  cases q with
  | updateOrganization caller o name => exact hq.elim
  | deleteOrganization caller o => exact hq.elim
  | addMember caller o email role =>
    obtain ⟨-, u, r, id, n, -, -, -, -, rfl⟩ := hw
    simp [OrgOp.Spares]
  | updateMemberRole caller o memberId role =>
    obtain ⟨-, m, r, -, hr, -, -, ⟨rfl, -⟩ | rfl⟩ := hw <;> simp [OrgOp.Spares]
  | removeMember caller o memberId =>
    obtain ⟨-, m, -, -, rfl⟩ := hw
    simp [OrgOp.Spares]

/-! ### Every run -/

/-- The invariant: every transaction in flight is a membership call that is safe. -/
structure MembershipRun (cfg : Config) (s : OrgSystem) : Prop where
  guarded : s.Guarded (fun _ => True) (fun _ _ => OrgDb.SameRoles) (fun _ _ => True)
    (fun r _ w db => r.Writes cfg OrgDb.SameRoles w db)
  only : s.Only OrgRequest.Membership

theorem MembershipRun.next {s : OrgSystem} {e : OrgEvent} (h : MembershipRun cfg s)
    (he : ∀ r, e = .start r → r.Membership) : MembershipRun cfg (orgNext cfg s e) :=
  ⟨(orgBounded cfg).next_guarded h.guarded, h.only.next he⟩

theorem MembershipRun.hasOwner_next {s : OrgSystem} {e : OrgEvent} (h : MembershipRun cfg s)
    (ho : s.db.HasOwner orgId) : (orgNext cfg s e).db.HasOwner orgId ↔ LeavesOwner orgId s e := by
  rw [orgNext, System.next_db (OrgRequest.prog cfg) s e]
  rcases hc : s.commits e with _ | ⟨r, a, w⟩
  · exact iff_of_true ho fun r a w hcw => by simp [hc] at hcw
  · rw [((orgBounded cfg).relies.of_commits h.guarded hc).hasOwner (h.only.commits hc) ho]
    constructor
    · intro hleft r' a' w' hcw
      rw [hc] at hcw
      cases hcw
      exact hleft
    · exact fun hleft => hleft r a w hc

theorem MembershipRun.hasOrganization_next {s : OrgSystem} {e : OrgEvent} (h : MembershipRun cfg s) :
    (orgNext cfg s e).db.hasOrganization orgId = s.db.hasOrganization orgId := by
  rw [orgNext, System.next_db (OrgRequest.prog cfg) s e]
  rcases hc : s.commits e with _ | ⟨r, a, w⟩
  · rfl
  · have hw := ((orgBounded cfg).relies.of_commits h.guarded hc).spares (h.only.commits hc)
    have hsame : (applyAll orgTables.backend w s.db).organizations = s.db.organizations :=
      applyAll_invariant (B := orgTables.backend)
        (P := fun db' => db'.organizations = s.db.organizations)
        (fun o ho db' h => ((hw o ho).apply db').trans h) rfl
    simp only [OrgDb.hasOrganization, hsame]

/-- In every run of interleaved membership calls, an organization that starts with an owner has one in
every committed state if and only if every commit that unseats an owner leaves another one. -/
theorem owner_kept_iff (cfg : Config) (orgId : Uuid) (db : OrgDb) (world : World Unit)
    (es : List OrgEvent) (hes : ∀ r, Event.start r ∈ es → r.Membership) (h : db.HasOwner orgId) :
    Always (orgNext cfg) (fun s => s.db.hasOrganization orgId = true → s.db.HasOwner orgId)
        (System.init db world) es ↔
      Meets (orgNext cfg) (LeavesOwner orgId) (System.init db world) es := by
  refine always_iff_meets_of (A := fun e => ∀ r, e = .start r → r.Membership)
    (I := fun s => MembershipRun cfg s ∧ s.db.hasOrganization orgId = true) ?_ ?_ ?_ ?_ fun _ => h
  · rintro s e ⟨hs, ho⟩ he
    exact ⟨hs.next he, hs.hasOrganization_next.trans ho⟩
  · rintro s e ⟨hs, ho⟩ he hp
    rw [hs.hasOrganization_next, ho, ← hs.hasOwner_next (hp ho)]
    exact ⟨fun h => h rfl, fun h _ => h⟩
  · rintro e he r rfl
    exact hes r he
  · refine ⟨⟨(System.init_quiet _ _).guarded trivial, (System.init_quiet _ _).only⟩, ?_⟩
    obtain ⟨m, hm, ho, -⟩ := h
    obtain ⟨o, ho', hid⟩ := (db.refers m hm).1
    exact List.any_eq_true.2 ⟨o, ho', by simp [hid, ho]⟩

/-- Two owners; each is demoted by the other, and both transactions count before one of them commits. -/
def demotionRace : List OrgEvent :=
  [.start (.updateMemberRole 1 5 12 .viewer), .start (.updateMemberRole 2 5 11 .viewer)] ++
  List.replicate 7 (.step 0 sampleOrgEnv) ++ List.replicate 20 (.step 1 sampleOrgEnv) ++
  List.replicate 20 (.step 0 sampleOrgEnv)

theorem demotionRace_membership : ∀ r, Event.start r ∈ demotionRace → r.Membership := by
  intro r hr
  simp only [demotionRace, List.cons_append, List.nil_append, List.mem_cons, Event.start.injEq,
    List.mem_append,
    List.mem_replicate, reduceCtorEq, and_false, or_false] at hr
  rcases hr with rfl | rfl <;> trivial

theorem sampleOrgDb_hasOwner : (sampleOrgDb .owner).HasOwner 5 :=
  ⟨⟨11, 5, 1, 31⟩, by decide, rfl, by decide⟩

/-- The condition decides the run of two concurrent demotions. -/
theorem owner_kept_iff_race : (∀ r, Event.start r ∈ demotionRace → r.Membership) ∧
    (sampleOrgDb .owner).HasOwner 5 ∧
    (Always (orgNext sampleConfig) (fun s => s.db.hasOrganization 5 = true → s.db.HasOwner 5)
        (System.init (sampleOrgDb .owner) sampleOrgWorld) demotionRace ↔
      Meets (orgNext sampleConfig) (LeavesOwner 5) (System.init (sampleOrgDb .owner) sampleOrgWorld)
          demotionRace) :=
  ⟨demotionRace_membership, sampleOrgDb_hasOwner,
    owner_kept_iff sampleConfig 5 _ _ demotionRace demotionRace_membership sampleOrgDb_hasOwner⟩

/-- Two concurrent demotions leave the organization without an owner. -/
theorem owner_lost : ¬ ∀ (cfg : Config) (orgId : Uuid) (db : OrgDb) (world : World Unit)
    (es : List OrgEvent),
    (∀ r, Event.start r ∈ es → r.Membership) → db.HasOwner orgId →
      Always (orgNext cfg) (fun s => s.db.hasOrganization orgId = true → s.db.HasOwner orgId)
        (System.init db world) es := by
  intro h
  have hrun := always_iff.1 (h sampleConfig 5 _ sampleOrgWorld demotionRace demotionRace_membership
    sampleOrgDb_hasOwner) demotionRace [] (List.append_nil _).symm
  obtain ⟨m, hm, ho, howner⟩ := hrun (by decide +kernel)
  have hnone : ∀ m ∈ (run (orgNext sampleConfig) (System.init (sampleOrgDb .owner) sampleOrgWorld)
      demotionRace).db.members.rows, m.organizationId = 5 → ¬ (run (orgNext sampleConfig)
        (System.init (sampleOrgDb .owner) sampleOrgWorld) demotionRace).db.MemberHasRole m
            RoleName.owner.name := by
    decide +kernel
  exact hnone m hm ho howner

end TrafficPlatform
