import TrafficPlatform.Notifications
import TrafficPlatform.Organizations.Writes
import TrafficPlatform.DualWrite
import TrafficPlatform.Kit.Replay
import TrafficPlatform.Kit.Later

/-!
# What the notification requests write

Every request writes what `InboxRequest.Writes` says, whatever the others commit meanwhile: the
roles and the notifications stay, and what is read stays read. A transaction that has marked an
unread notification holds its row, so the notification is still unread for the others when the
transaction commits (`NotificationOp.Own`).
-/

namespace TrafficPlatform
open Kit

/-! ### What is announced -/

/-- What a notification says, and to whom. -/
structure NotificationContent where
  userId : Uuid
  organizationId : Option Uuid
  type : String
  title : String
  body : String
deriving DecidableEq, Repr

def Notification.content (n : Notification) : NotificationContent :=
  ⟨n.userId, n.organizationId, n.type, n.title, n.body⟩

/-- The notification that an answered request is to add. -/
def OrgRequest.announcement : OrgRequest → OrgAnswer → Option NotificationContent
  | addMember _ orgId _ _, .member _ userId _ _ role =>
    some ⟨userId, some orgId, "member.added", "You were added to an organization",
      "You now have the '" ++ role ++ "' role."⟩
  | _, _ => none

def announcement : InboxRequest × InboxAnswer → Option NotificationContent
  | (.org r, .org a) => r.announcement a
  | _ => none

/-! ### What the others may do -/

/-- The roles and the notifications stay, and what is read stays read. -/
structure NotificationDb.Keeps (db db' : NotificationDb) : Prop where
  roles : db.orgs.SameRoles db'.orgs
  rows : ∀ n ∈ db.orgs.notifications.rows, n ∈ db'.orgs.notifications.rows
  read : ∀ id, (db.readAt id).isSome = true → (db'.readAt id).isSome = true

namespace NotificationDb

variable {db db' db'' : NotificationDb} {id : Uuid} {time : Time} {user : Uuid} {n : Notification}

theorem hasNotification_iff : db.hasNotification id = true ↔ ∃ n ∈ db.orgs.notifications.rows,
    n.id = id := by
  simp [hasNotification]

theorem orgs_setReadAt : (db.setReadAt id time).orgs = db.orgs := by
  unfold setReadAt
  split <;> rfl

theorem readAt_setReadAt (h : db.hasNotification id = true) :
    (db.setReadAt id time).readAt = Function.update db.readAt id (some time) := by
  unfold setReadAt
  rw [dif_pos h]

theorem isSome_setReadAt {id' : Uuid} (h : ((db.setReadAt id time).readAt id').isSome = true) :
    (db.readAt id').isSome = true ∨ id' = id := by
  unfold setReadAt at h
  split at h
  · dsimp only at h
    rw [Function.update_apply] at h
    split at h
    · exact .inr ‹_›
    · exact .inl h
  · exact .inl h

theorem Keeps.refl (db : NotificationDb) : db.Keeps db := ⟨rfl, fun _ h => h, fun _ h => h⟩

theorem Keeps.trans (h : db.Keeps db') (h' : db'.Keeps db'') : db.Keeps db'' :=
  ⟨Eq.trans h'.roles h.roles,
    fun n hn => h'.rows n (h.rows n hn), fun id hid => h'.read id (h.read id hid)⟩

theorem keeps_setReadAt : db.Keeps (db.setReadAt id time) := by
  refine ⟨by rw [OrgDb.SameRoles, orgs_setReadAt], fun n hn => by rwa [orgs_setReadAt], fun id' h => ?_⟩
  unfold setReadAt
  split
  · dsimp only
    rw [Function.update_apply]
    split
    · rfl
    · exact h
  · exact h

theorem keeps_apply (o : NotificationOp) (db : NotificationDb) : db.Keeps (o.apply db) := by
  cases o with
  | org o => exact ⟨o.apply_roles db.orgs, fun n hn => OrgOp.mem_notifications_apply hn, fun id h => h⟩
  | setReadAt id time => exact keeps_setReadAt
  | setUnreadAt id time => exact keeps_setReadAt

theorem keeps_applyAll (w : List NotificationOp) (db : NotificationDb) :
    db.Keeps (applyAll notificationTables.backend w db) :=
  applyAll_invariant (B := notificationTables.backend) (P := db.Keeps)
    (fun o _ db' h => h.trans (keeps_apply o db')) (.refl db)

theorem readAt_of_admits (h : db.orgs.notifications.admits n = true) : db.readAt n.id = none := by
  rw [← Option.not_isSome_iff_eq_none]
  intro hsome
  obtain ⟨n', hn', hid⟩ := db.stored n.id hsome
  exact Table.admits_iff.1 h n' hn' (by simp [Schema.clash, hid])

/-- To mark an unread notification of a user takes one from those that are unread. -/
theorem unread_setReadAt (time : Time) (user : Uuid) (hn : n ∈ db.orgs.notifications.rows)
    (hnone : db.readAt n.id = none) :
    (db.setReadAt n.id time).unread user + (if n.userId = user then 1 else 0) = db.unread user := by
  have hstored : db.hasNotification n.id = true := hasNotification_iff.2 ⟨n, hn, rfl⟩
  unfold unread
  rw [orgs_setReadAt, readAt_setReadAt hstored]
  have hdistinct := db.orgs.notifications.distinct
  obtain ⟨before, after, hrows⟩ := List.append_of_mem hn
  rw [hrows, List.pairwise_append, List.pairwise_cons] at hdistinct
  obtain ⟨-, ⟨hafter, -⟩, hbefore⟩ := hdistinct
  have hothers : ∀ l : List Notification, (∀ n' ∈ l, n'.id ≠ n.id) →
      l.countP (fun n' => n'.userId == user &&
        (Function.update db.readAt n.id (some time) n'.id).isNone) =
        l.countP fun n' => n'.userId == user && (db.readAt n'.id).isNone := by
    intro l hl
    refine List.countP_congr fun n' hn' => ?_
    rw [Function.update_of_ne (hl n' hn')]
  rw [hrows, List.countP_append, List.countP_append, List.countP_cons, List.countP_cons,
    hothers before, hothers after]
  · by_cases huser : n.userId = user <;> simp [huser, hnone, Nat.add_assoc]
  · exact fun n' hn' hid => hafter n' hn' (by simp [Schema.clash, hid])
  · exact fun n' hn' hid => hbefore n' hn' n List.mem_cons_self (by simp [Schema.clash, hid])

theorem unread_setReadAt_of_read (h : (db.readAt id).isSome = true) :
    (db.setReadAt id time).unread user = db.unread user := by
  unfold unread
  rw [orgs_setReadAt, readAt_setReadAt (hasNotification_iff.2 (db.stored id h))]
  refine List.countP_congr fun n _ => ?_
  rw [Function.update_apply]
  split
  · rename_i hid
    rw [hid]
    simp [Option.isSome_iff_ne_none.1 h]
  · rfl

end NotificationDb

/-! ### What a commit writes -/

namespace NotificationOp

/-- What a transaction knows of a row that it has written: an added one is new, and one that it
marks is unread. -/
def Own : NotificationOp → NotificationDb → Prop
  | org (.addNotification n), db => db.orgs.notifications.admits n = true
  | setUnreadAt id _, db => db.readAt id = none
  | _, _ => True

variable {o : NotificationOp} {db : NotificationDb} {w : List NotificationOp} {n : Notification}

theorem notifications_apply (h : o.added = none) : (o.apply db).orgs.notifications =
    db.orgs.notifications := by
  cases o with
  | org o =>
    refine (o.notifications_apply db.orgs).trans ?_
    cases o <;> first | rfl | cases h
  | setReadAt id time => exact congrArg OrgDb.notifications NotificationDb.orgs_setReadAt
  | setUnreadAt id time => exact congrArg OrgDb.notifications NotificationDb.orgs_setReadAt

theorem added_eq_some (h : o.added = some n) : o = .org (.addNotification n) := by
  cases o with
  | org o => cases o <;> cases h; rfl
  | setReadAt id time => cases h
  | setUnreadAt id time => cases h

theorem notifications_applyAll (h : w.filterMap added = []) :
    (applyAll notificationTables.backend w db : NotificationDb).orgs.notifications =
        db.orgs.notifications := by
  refine applyAll_invariant (B := notificationTables.backend)
    (P := fun db' : NotificationDb => db'.orgs.notifications = db.orgs.notifications)
    (fun o ho db' h' => ?_) rfl
  exact (notifications_apply (List.filterMap_eq_nil_iff.1 h o ho)).trans h'

/-- The notifications after writes that add at most one. -/
theorem rows_applyAll (hown : ∀ n ∈ w.filterMap added, db.orgs.notifications.admits n = true)
    (hone : (w.filterMap added).length ≤ 1) :
    (applyAll notificationTables.backend w db : NotificationDb).orgs.notifications.rows =
      db.orgs.notifications.rows ++ w.filterMap added := by
  induction w generalizing db with
  | nil => exact (List.append_nil _).symm
  | cons o w ih =>
    rw [applyAll_cons]
    cases ho : o.added with
    | none =>
      rw [List.filterMap_cons_none ho] at hown hone ⊢
      have hsame : (notificationTables.backend.apply o db).orgs.notifications =
        db.orgs.notifications := notifications_apply ho
      rw [ih (hsame ▸ hown) hone, hsame]
    | some n =>
      rw [List.filterMap_cons_some ho] at hown hone ⊢
      have hnil : w.filterMap added = [] := List.length_eq_zero_iff.1 (by simpa using hone)
      have hadmits := hown n List.mem_cons_self
      rw [notifications_applyAll hnil, hnil, added_eq_some ho]
      show (OrgOp.apply (.addNotification n) db.orgs).notifications.rows = _
      rw [OrgOp.notifications_apply]
      exact Table.rows_insert hadmits

theorem read_applyAll {id : Uuid}
    (h : ((applyAll notificationTables.backend w db : NotificationDb).readAt id).isSome = true) :
    (db.readAt id).isSome = true ∨ ∃ o ∈ w, o.marks = some id := by
  refine applyAll_invariant (B := notificationTables.backend)
    (P := fun db' : NotificationDb => (db'.readAt id).isSome = true →
    (db.readAt id).isSome = true ∨ ∃ o ∈ w, o.marks = some id) (fun o ho db' h' hread => ?_) .inl h
  cases o with
  | org o => exact h' hread
  | setReadAt id' time =>
    rcases NotificationDb.isSome_setReadAt hread with hread | rfl
    · exact h' hread
    · exact .inr ⟨_, ho, rfl⟩
  | setUnreadAt id' time =>
    rcases NotificationDb.isSome_setReadAt hread with hread | rfl
    · exact h' hread
    · exact .inr ⟨_, ho, rfl⟩

theorem read_of_mem {id : Uuid} {time : Time} (hstored : db.hasNotification id = true)
    (h : .setUnreadAt id time ∈ w) :
    ((applyAll notificationTables.backend w db : NotificationDb).readAt id).isSome = true := by
  induction w generalizing db with
  | nil => cases h
  | cons o w ih =>
    rw [applyAll_cons]
    rcases List.mem_cons.1 h with rfl | h
    · refine (NotificationDb.keeps_applyAll w _).read id ?_
      show ((db.setReadAt id time).readAt id).isSome = true
      rw [NotificationDb.readAt_setReadAt hstored, Function.update_self]
      rfl
    · obtain ⟨n, hn, hid⟩ := NotificationDb.hasNotification_iff.1 hstored
      exact ih (NotificationDb.hasNotification_iff.2
        ⟨n, (NotificationDb.keeps_apply o db).rows n hn, hid⟩) h

theorem readAt_org (w : List OrgOp) (db : NotificationDb) :
    (applyAll notificationTables.backend (w.map .org) db : NotificationDb).readAt = db.readAt := by
  refine applyAll_invariant (B := notificationTables.backend)
    (P := fun db' : NotificationDb => db'.readAt = db.readAt) (fun o ho db' h => ?_) rfl
  obtain ⟨o, -, rfl⟩ := List.mem_map.1 ho
  exact h

/-- The unread notifications after distinct ones of one user are marked. -/
theorem unread_marked {ids : List Uuid} (time : Time) {caller : Uuid} (user : Uuid) (hnodup : ids.Nodup)
    (hids : ∀ id ∈ ids, db.readAt id = none ∧ ∃ n ∈ db.orgs.notifications.rows, n.userId = caller ∧
      n.id = id) :
    (applyAll notificationTables.backend (ids.map fun id => .setUnreadAt id time) db :
      NotificationDb).unread user +
      (if caller = user then ids.length else 0) = db.unread user := by
  induction ids generalizing db with
  | nil =>
    rw [List.map_nil, List.length_nil, ite_self, Nat.add_zero]
    rfl
  | cons id ids ih =>
    obtain ⟨hfresh, hnodup'⟩ := List.nodup_cons.1 hnodup
    obtain ⟨⟨hnone, n, hn, hcaller, hid⟩, hrest⟩ := List.forall_mem_cons.1 hids
    subst hid
    have hstored : db.hasNotification n.id = true := NotificationDb.hasNotification_iff.2 ⟨n, hn, rfl⟩
    have hfirst := NotificationDb.unread_setReadAt time user hn hnone
    have hmarked : ∀ id ∈ ids, (db.setReadAt n.id time).readAt id = none ∧
        ∃ n' ∈ (db.setReadAt n.id time).orgs.notifications.rows, n'.userId = caller ∧ n'.id = id := by
      intro id hid
      obtain ⟨hnone', n', hn', hrow⟩ := hrest id hid
      refine ⟨?_, n', by rwa [NotificationDb.orgs_setReadAt], hrow⟩
      rw [NotificationDb.readAt_setReadAt hstored, Function.update_of_ne]
      · exact hnone'
      · rintro rfl
        exact hfresh hid
    have hnext := ih hnodup' hmarked
    rw [hcaller] at hfirst
    rw [List.map_cons, applyAll_cons, List.length_cons]
    show NotificationDb.unread user
      (applyAll notificationTables.backend _ (db.setReadAt n.id time)) + _ = _
    split at hnext <;> rename_i h <;> simp only [h, if_true, if_false] at hfirst ⊢ <;> omega

end NotificationOp

/-- What an answered request has written. -/
def InboxRequest.Writes (cfg : InboxConfig) : InboxRequest → InboxAnswer → List NotificationOp →
    NotificationDb → Prop
  | org r, .org a, w, _ => ∃ ops : List OrgOp, w = ops.map .org ∧
    ((ops.map NotificationOp.org).filterMap NotificationOp.added).map Notification.content =
      (r.announcement a).toList
  | listNotifications caller _ _ _, .notifications items, w, db =>
    w = [] ∧ ∀ item ∈ items, ∃ n ∈ db.orgs.notifications.rows,
    n.userId = caller ∧ ∃ readAt, item = cfg.response (n, readAt)
  | markRead caller notificationId, .notification item, w, db =>
    (w = [] ∨ ∃ time, w = [.setReadAt notificationId time]) ∧
    ∃ n ∈ db.orgs.notifications.rows, n.userId = caller ∧ n.id = notificationId ∧ ∃ readAt,
      item = cfg.response (n, readAt)
  | markAllRead caller, .marked count _, w, db =>
    ∃ (ids : List Uuid) (time : Time), w = ids.map (fun id => .setUnreadAt id time) ∧
    count = ids.length ∧ ids.Nodup ∧ ∀ id ∈ ids, ∃ n ∈ db.orgs.notifications.rows,
      n.userId = caller ∧ n.id = id
  | _, _, _, _ => False

/-! ### The handlers -/

section
variable {cfg : Config}

theorem deferring_getOrganization (orgId : Uuid) :
    (Organizations.OrganizationService.getOrganization orgId).Deferring := by
  refine (Prog.deferring_query _).bind fun org => ?_
  cases org <;> trivial

theorem deferring_roleId (role : RoleName) :
    (Organizations.OrganizationService.roleId role).Deferring := by
  refine (Prog.deferring_query _).bind fun r => ?_
  cases r <;> trivial

theorem deferring_hydrate (m : OrganizationMember) :
    (Organizations.OrganizationService.hydrate m).Deferring := by
  refine (Prog.deferring_query _).bind fun row => ?_
  cases row <;> trivial

theorem deferring_getMember (loaded : OrganizationMember) (orgId memberId : Uuid) :
    (Organizations.OrganizationService.getMember loaded orgId memberId).Deferring := by
  refine Prog.Deferring.bind ?_ fun m => ?_
  · unfold Organizations.MembershipRepository.get
    split
    · trivial
    · exact Prog.deferring_query _
  · cases m with
    | none => trivial
    | some m => dsimp only; split <;> trivial

theorem deferring_refuseLastOwner (orgId ownerRoleId : Uuid) (message : String) :
    (Organizations.OrganizationService.refuseLastOwner orgId ownerRoleId message).Deferring := by
  refine (Prog.deferring_query _).bind fun owners => ?_
  split <;> trivial

theorem deferring_deleteEach (ms : List OrganizationMember) :
    (Organizations.OrganizationRepository.delete.deleteEach ms).Deferring := by
  induction ms with
  | nil => trivial
  | cons m ms ih => exact (Prog.deferring_set _).bind fun _ => ih

theorem deferring_addMember (orgId : Uuid) (email : String) (role : RoleName) :
    (Organizations.OrganizationService.addMember cfg orgId email role).Deferring := by
  refine (Prog.deferring_query _).bind fun user => ?_
  cases user with
  | none => trivial
  | some user =>
    refine (Prog.deferring_query _).bind fun existing => ?_
    dsimp only
    split
    · trivial
    · refine (deferring_roleId role).bind fun r => (Prog.deferring_ask _).bind fun id => ?_
      exact ((Prog.deferring_set _).bind fun _ => Prog.deferring_flushSession).bind
        fun _ => (deferring_hydrate _).bind fun _ => trivial

/-- The organization requests write what they have assigned. -/
theorem OrgRequest.deferring (cfg : Config) (r : OrgRequest) : (r.prog cfg).Deferring := by
  have hauthorize :=
    fun permission caller orgId => (queries_authorize permission caller orgId).deferring
  cases r with
  | updateOrganization caller orgId name =>
    refine (hauthorize _ _ _).bind fun _ => Prog.Deferring.bind ?_ fun _ => trivial
    refine (deferring_getOrganization orgId).bind fun org => ?_
    dsimp only
    split
    · exact (Prog.deferring_set _).bind fun _ => trivial
    · trivial
  | deleteOrganization caller orgId =>
    refine (hauthorize _ _ _).bind fun _ => Prog.Deferring.bind ?_ fun _ => trivial
    refine (deferring_getOrganization orgId).bind fun org => (Prog.deferring_query _).bind fun ms => ?_
    exact (deferring_deleteEach ms).bind
      fun _ => (Prog.deferring_set _).bind fun _ => Prog.deferring_flushSession
  | addMember caller orgId email role =>
    refine (hauthorize _ _ _).bind fun _ => (deferring_addMember orgId email role).bind fun row => ?_
    refine Prog.Deferring.bind ?_ fun _ => trivial
    exact (Prog.deferring_ask _).bind
      fun id => (Prog.deferring_set _).bind fun _ => Prog.deferring_flushSession
  | updateMemberRole caller orgId memberId role =>
    refine (hauthorize _ _ _).bind fun loaded => Prog.Deferring.bind ?_ fun _ => trivial
    refine (deferring_getMember loaded orgId memberId).bind
      fun m => (deferring_roleId .owner).bind fun owner => ?_
    have hrest : (do
        let newRoleId ← Organizations.OrganizationService.roleId role
        if m.roleId ≠ newRoleId then .set (.setMemberRole m.id newRoleId)
        .flushSession
        let row ← Organizations.OrganizationService.hydrate m
        return ({ m with roleId := newRoleId }, row) :
            Org (OrganizationMember × User × Role)).Deferring := by
      refine (deferring_roleId role).bind fun r => ?_
      dsimp only
      split
      · exact (Prog.deferring_set _).bind
          fun _ => Prog.deferring_flushSession.bind
            fun _ => (deferring_hydrate m).bind fun _ => trivial
      · exact Prog.deferring_flushSession.bind fun _ => (deferring_hydrate m).bind fun _ => trivial
    dsimp only
    split
    · exact (deferring_refuseLastOwner _ _ _).bind fun _ => hrest
    · exact hrest
  | removeMember caller orgId memberId =>
    refine (hauthorize _ _ _).bind fun loaded => Prog.Deferring.bind ?_ fun _ => trivial
    refine (deferring_getMember loaded orgId memberId).bind
      fun m => (deferring_roleId .owner).bind fun owner => ?_
    dsimp only
    split
    · exact (deferring_refuseLastOwner _ _ _).bind
        fun _ => (Prog.deferring_set _).bind fun _ => Prog.deferring_flushSession
    · exact (Prog.deferring_set _).bind fun _ => Prog.deferring_flushSession

/-- What an organization request adds to the notifications, whatever the others commit meanwhile. -/
theorem OrgRequest.announces (cfg : Config) (r : OrgRequest) (db : OrgDb) :
    Org.Safe OrgDb.SameRoles (r.prog cfg)
    (fun a d w _ => (((w ++ d).map NotificationOp.org).filterMap NotificationOp.added).map
      Notification.content =
      (r.announcement a).toList) [] [] db := by
  have hR := OrgRely.ofRoles
  have hnone : ∀ w : List OrgOp, (∀ n, OrgOp.addNotification n ∉ w) →
      (w.map NotificationOp.org).filterMap NotificationOp.added = [] := by
    intro w hw
    refine List.filterMap_eq_nil_iff.2 fun o ho => ?_
    obtain ⟨o, ho', rfl⟩ := List.mem_map.1 ho
    cases o <;> first | rfl | exact absurd ho' (hw _)
  have hsafe : Org.Safe OrgDb.SameRoles (r.prog cfg)
      (fun _ d w db' => r.Writes cfg OrgDb.SameRoles (w ++ d) db') [] [] db :=
    r.prog_safe hR db
  cases r with
  | updateOrganization caller orgId name =>
    refine hsafe.mono fun a d w db' h => ?_
    rw [hnone _ fun n hn => by obtain ⟨_, _, heq⟩ := h _ hn; cases heq]
    rfl
  | deleteOrganization caller orgId =>
    refine hsafe.mono fun a d w db' h => ?_
    obtain ⟨-, ms, -, hw⟩ := h
    rw [hw, hnone _ fun n hn => by simp at hn]
    rfl
  | addMember caller orgId email role =>
    refine Organizations.authorize_safe hR fun m db₁ _ _ _ => ?_
    refine Organizations.addMember_safe hR fun u r id row db₂ _ _ _ _ _ => ?_
    simp only [Organizations.NotificationService.create, uuid4, Prog.bind_assoc']
    exact Prog.Safe.ask hR.trans
      fun id' => Prog.Safe.set hR.trans (Prog.Safe.flushSession fun db₃ _ _ db₄ _ _ => rfl)
  | updateMemberRole caller orgId memberId role =>
    refine hsafe.mono fun a d w db' h => ?_
    obtain ⟨-, m, r, -, -, -, -, ⟨hw, -⟩ | hw⟩ := h <;> rw [hw] <;> rfl
  | removeMember caller orgId memberId =>
    refine hsafe.mono fun a d w db' h => ?_
    obtain ⟨-, m, -, -, hw⟩ := h
    rw [hw]
    rfl

end

/-- Safe while the roles and the notifications stay, and what is read stays read. -/
abbrev InboxSafe {α : Type} (p : Inbox α)
    (Q : α → List NotificationOp → List NotificationOp → NotificationDb → Prop)
    (d w : List NotificationOp) (db : NotificationDb) : Prop :=
      p.Safe (fun _ => NotificationDb.Keeps) NotificationOp.Own Q d w db

section
open Notifications

variable {α : Type} {cfg : InboxConfig} {db : NotificationDb}
    {Q : α → List NotificationOp → List NotificationOp → NotificationDb → Prop}

theorem keeps_trans (a b c : NotificationDb) (h : a.Keeps b) (h' : b.Keeps c) : a.Keeps c := h.trans h'

theorem currentUser_safe {caller : Uuid} {k : User → Inbox α}
    (h : ∀ u db', db.Keeps db' → u.id = caller → InboxSafe (k u) Q [] [] db') :
    InboxSafe (InboxRequest.currentUser caller >>= k) Q [] [] db := by
  have huser : Org.Safe OrgDb.SameRoles (Organizations.getCurrentUser caller)
      (fun u d w _ => u.id = caller ∧ d = [] ∧ w = []) [] [] db.orgs := by
    have hret : Org.Safe OrgDb.SameRoles (Organizations.getCurrentUser caller >>= Prog.ret)
        (fun u d w _ => u.id = caller ∧ d = [] ∧ w = []) [] [] db.orgs :=
      Organizations.getCurrentUser_safe fun u db' _ hid _ _ _ _ => ⟨hid, rfl, rfl⟩
    rwa [Prog.bind_ret] at hret
  have hembed : InboxSafe (InboxRequest.currentUser caller) _ [] [] db :=
    Prog.Safe.embed_rely orgNotifications (fun _ _ h => h.roles)
      (queries_getCurrentUser caller).deferring huser
  refine Prog.Safe.bind (fun _ => NotificationDb.Keeps.refl) (by simp) ?_
  refine (hembed.related keeps_trans (.refl db)).mono fun u d w db' hQ => ?_
  obtain ⟨hkeeps, d', w', rfl, rfl, hid, rfl, rfl⟩ := hQ
  exact h u db' hkeeps hid

theorem mem_rowsForUser {userId : Uuid} {unreadOnly : Bool} {limit offset : Nat}
    {row : Notification × Option Time}
    (h : row ∈ NotificationRepository.rowsForUser cfg userId unreadOnly limit offset db) :
    row.1 ∈ db.orgs.notifications.rows ∧ row.1.userId = userId := by
  obtain ⟨n, hn, rfl⟩ := List.mem_map.1 (List.mem_of_mem_drop (List.mem_of_mem_take h))
  obtain ⟨hmem, hp⟩ := Table.mem_select.1 ((List.mem_insertionSort _).1 hn)
  rw [Bool.and_eq_true, beq_iff_eq] at hp
  exact ⟨hmem, hp.1⟩

theorem mem_unreadOf {userId id : Uuid} : id ∈ NotificationRepository.unreadOf userId db ↔
    db.readAt id = none ∧ ∃ n ∈ db.orgs.notifications.rows, n.userId = userId ∧ n.id = id := by
  constructor
  · intro h
    obtain ⟨n, hn, rfl⟩ := List.mem_map.1 h
    obtain ⟨hmem, hp⟩ := Table.mem_select.1 hn
    rw [Bool.and_eq_true, beq_iff_eq, Option.isNone_iff_eq_none] at hp
    exact ⟨hp.2, n, hmem, hp.1, rfl⟩
  · rintro ⟨hnone, n, hmem, rfl, rfl⟩
    exact List.mem_map_of_mem (Table.mem_select.2 ⟨hmem, by simp [hnone]⟩)

theorem nodup_unreadOf (userId : Uuid) (db : NotificationDb) :
    (NotificationRepository.unreadOf userId db).Nodup := by
  refine List.pairwise_map.2
    ((db.orgs.notifications.distinct.filter _).imp fun {n n'} hclash hid => hclash ?_)
  simp [Schema.clash, hid]

theorem markAllRead_safe {userId : Uuid} {k : Nat → Inbox α} (h : ∀ time db', db.Keeps db' →
      InboxSafe (k (NotificationRepository.unreadOf userId db').length) Q []
        ((NotificationRepository.unreadOf userId db').map fun id => .setUnreadAt id time) db') :
    InboxSafe (NotificationRepository.markAllRead userId >>= k) Q [] [] db := by
  simp only [NotificationRepository.markAllRead, now, Prog.bind_assoc']
  refine Prog.Safe.ask keeps_trans fun time => ?_
  intro db' h' _ lk b ops hf
  cases hf
  refine ⟨fun o ho => ?_, h time db' h'⟩
  obtain ⟨id, hmem, rfl⟩ := List.mem_map.1 ho
  exact (mem_unreadOf.1 hmem).1

/-- What a request that is answered has written, whatever the others commit meanwhile. -/
theorem InboxRequest.prog_safe (cfg : InboxConfig) (r : InboxRequest) (db : NotificationDb) :
    InboxSafe (r.prog cfg) (fun a d w db => r.Writes cfg a (w ++ d) db) [] [] db := by
  cases r with
  | org r =>
    have hembed : InboxSafe (Prog.embed orgNotifications (r.prog cfg.toConfig)) _ [] [] db :=
      Prog.Safe.embed_rely orgNotifications (fun _ _ h => h.roles) (r.deferring cfg.toConfig)
        (r.announces cfg.toConfig db.orgs)
    refine Prog.Safe.bind (fun _ => NotificationDb.Keeps.refl) (by simp)
      (hembed.mono fun a d w db' hQ => ?_)
    obtain ⟨d', w', rfl, rfl, hcontent⟩ := hQ
    exact fun _ _ _ => ⟨w' ++ d', List.map_append.symm, hcontent⟩
  | listNotifications caller unreadOnly limit offset =>
    refine currentUser_safe fun u db₁ h₁ hid => Prog.Safe.query_nil fun db₂ _ => ?_
    intro db₃ h₃ _
    refine ⟨rfl, fun item hitem => ?_⟩
    obtain ⟨row, hrow, rfl⟩ := List.mem_map.1 hitem
    obtain ⟨hmem, huser⟩ := mem_rowsForUser hrow
    exact ⟨row.1, h₃.rows _ hmem, huser.trans hid, row.2, rfl⟩
  | markRead caller notificationId =>
    refine currentUser_safe fun u db₁ h₁ hid => ?_
    simp only [NotificationService.markRead, NotificationRepository.getForUser, Prog.bind_assoc']
    refine Prog.Safe.query_nil fun db₂ _ => ?_
    cases hone : db₂.orgs.notifications.one fun n => n.id == notificationId && n.userId == u.id with
    | none => trivial
    | some n =>
      have hp := Table.pred_of_one hone
      simp only [Bool.and_eq_true, beq_iff_eq] at hp
      have hrow : ∀ {db'} (readAt : Option Time), db₂.Keeps db' →
          ∃ n' ∈ db'.orgs.notifications.rows, n'.userId = caller ∧
          n'.id = notificationId ∧ ∃ readAt', cfg.response (n, readAt) = cfg.response (n', readAt') :=
        fun readAt h => ⟨n, h.rows n (Table.mem_of_one hone), hp.2.trans hid, hp.1, readAt, rfl⟩
      simp only [Option.map_some]
      cases hread : db₂.readAt n.id with
      | some time =>
        simp only [Prog.bind_assoc']
        refine Prog.Safe.flushSession fun db₃ h₃ _ => ?_
        exact fun db₄ h₄ _ => ⟨.inl rfl, hrow _ (h₃.trans h₄)⟩
      | none =>
        simp only [now, Prog.bind_assoc']
        refine Prog.Safe.ask keeps_trans
          fun time => Prog.Safe.set keeps_trans (Prog.Safe.flushSession fun db₃ h₃ _ => ?_)
        exact fun db₄ h₄ _ => ⟨.inr ⟨time, by rw [hp.1]; rfl⟩, hrow _ (h₃.trans h₄)⟩
  | markAllRead caller =>
    refine currentUser_safe fun u db₁ h₁ hid => ?_
    refine markAllRead_safe fun time db₂ h₂ db₃ h₃ _ => ?_
    refine ⟨NotificationRepository.unreadOf u.id db₂, time, List.append_nil _, rfl,
      nodup_unreadOf _ _, fun id hmem => ?_⟩
    obtain ⟨-, n, hn, huser, hnid⟩ := mem_unreadOf.1 hmem
    exact ⟨n, h₃.rows n hn, huser.trans hid, hnid⟩

end

end TrafficPlatform
