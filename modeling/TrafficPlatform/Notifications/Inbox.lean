import TrafficPlatform.Notifications.Writes

/-!
# What the notifications say

In every interleaving the notifications tell who was added, each is shown to its user alone and
marked by its user alone, and the counts of "read all" count no notification twice (`inbox_kept`); a
"read all" leaves no notification unread that was stored when it arrived (`inbox_read_all`).
-/

namespace TrafficPlatform
open Kit

/-! ### What the history says of the notifications -/

/-- The request marks the notification of its caller. -/
def InboxRequest.Marks (n : Notification) : InboxRequest → Prop
  | markRead caller notificationId => n.userId = caller ∧ n.id = notificationId
  | markAllRead caller => n.userId = caller
  | _ => False

/-- How many notifications of the user an answer says that it has marked. -/
def markedBy (user : Uuid) : InboxRequest × InboxAnswer → Nat
  | (.markAllRead caller, .marked count _) => if caller = user then count else 0
  | _ => 0

/-- The request marks one notification of the user. -/
def readsOne (user : Uuid) : InboxRequest × InboxAnswer → Nat
  | (.markRead caller _, _) => if caller = user then 1 else 0
  | _ => 0

/-- The commit adds a notification for the user. -/
def announcedTo (user : Uuid) (e : InboxRequest × InboxAnswer) : Nat :=
  if (announcement e).any fun c => c.userId == user then 1 else 0

/-- What the notifications say of the history of the commits. -/
structure InboxKept (cfg : InboxConfig) (db₀ : NotificationDb)
    (history : List (InboxRequest × InboxAnswer)) (db : NotificationDb) : Prop where
  announced : ∃ added, db.orgs.notifications.rows = db₀.orgs.notifications.rows ++ added ∧
    added.map Notification.content = history.filterMap announcement
  kept : ∀ id, (db₀.readAt id).isSome = true → (db.readAt id).isSome = true
  reader : ∀ n ∈ db.orgs.notifications.rows, (db.readAt n.id).isSome = true →
    (db₀.readAt n.id).isSome = true ∨ ∃ e ∈ history, e.1.Marks n
  shown : ∀ e ∈ history, ∀ item ∈ e.2.items, ∃ n ∈ db.orgs.notifications.rows, n.userId = e.1.caller ∧
    ∃ readAt, item = cfg.response (n, readAt)
  counted : ∀ user, db.unread user + (history.map (markedBy user)).sum ≤ db₀.unread user +
    (history.map (announcedTo user)).sum
  marked : ∀ user, db₀.unread user + (history.map (announcedTo user)).sum ≤
    db.unread user + (history.map (markedBy user)).sum + (history.map (readsOne user)).sum

/-! ### What one commit does -/

section
variable {cfg : InboxConfig} {r : InboxRequest} {a : InboxAnswer} {w : List NotificationOp}
    {db db₀ db' : NotificationDb}
  {history history' : List (InboxRequest × InboxAnswer)}

theorem InboxKept.nil (cfg : InboxConfig) (db : NotificationDb) : InboxKept cfg db [] db where
  announced := ⟨[], (List.append_nil _).symm, rfl⟩
  kept _ h := h
  reader _ _ h := .inl h
  shown _ h := absurd h List.not_mem_nil
  counted _ := Nat.le_refl _
  marked _ := Nat.le_refl _

/-- One part of a history after the other. -/
theorem InboxKept.append (h : InboxKept cfg db₀ history db) (h' : InboxKept cfg db history' db') :
    InboxKept cfg db₀ (history ++ history') db' := by
  obtain ⟨added, hrows, hadded⟩ := h.announced
  obtain ⟨added', hrows', hadded'⟩ := h'.announced
  have hmem : ∀ n ∈ db.orgs.notifications.rows, n ∈ db'.orgs.notifications.rows := by
    intro n hn
    rw [hrows']
    exact List.mem_append_left _ hn
  refine ⟨⟨added ++ added', ?_, ?_⟩,
    fun id hid => h'.kept id (h.kept id hid), fun n hn hread => ?_, fun e he item hitem => ?_,
    fun user => ?_, fun user => ?_⟩
  · rw [hrows', hrows, List.append_assoc]
  · rw [List.map_append, List.filterMap_append, hadded, hadded']
  · rcases h'.reader n hn hread with hread | ⟨e, he, hmarks⟩
    · -- what was read before the second part was stored before it
      obtain ⟨n', hn', hid⟩ := db.stored n.id hread
      have hsame : n' = n := Table.eq_of_clash (hmem n' hn') hn (by simp [Schema.clash, hid])
      rcases h.reader n (hsame ▸ hn') hread with hread | ⟨e, he, hmarks⟩
      · exact .inl hread
      · exact .inr ⟨e, List.mem_append_left _ he, hmarks⟩
    · exact .inr ⟨e, List.mem_append_right _ he, hmarks⟩
  · rcases List.mem_append.1 he with he | he
    · obtain ⟨n, hn, hshown⟩ := h.shown e he item hitem
      exact ⟨n, hmem n hn, hshown⟩
    · exact h'.shown e he item hitem
  · have h₁ := h.counted user
    have h₂ := h'.counted user
    simp only [List.map_append, List.sum_append]
    omega
  · have h₁ := h.marked user
    have h₂ := h'.marked user
    simp only [List.map_append, List.sum_append]
    omega

/-- A commit that adds no notification. -/
theorem InboxKept.of_marks (hw : w.filterMap NotificationOp.added = [])
    (ha : announcement (r, a) = none)
    (hmarks : ∀ n ∈ db.orgs.notifications.rows, ∀ o ∈ w, o.marks = some n.id → r.Marks n)
    (hshown : ∀ item ∈ a.items, ∃ n ∈ db.orgs.notifications.rows, n.userId = r.caller ∧
      ∃ readAt, item = cfg.response (n, readAt))
    (hle : ∀ user, NotificationDb.unread user (applyAll notificationTables.backend w db) +
      markedBy user (r, a) ≤ db.unread user)
    (hge : ∀ user, db.unread user ≤
      NotificationDb.unread user (applyAll notificationTables.backend w db) + markedBy user (r, a) +
        readsOne user (r, a)) :
    InboxKept cfg db [(r, a)] (applyAll notificationTables.backend w db) := by
  have hsame : (applyAll notificationTables.backend w db : NotificationDb).orgs.notifications =
      db.orgs.notifications :=
    NotificationOp.notifications_applyAll hw
  have hnone : ∀ user, announcedTo user (r, a) = 0 := by
    intro user
    rw [announcedTo, ha]
    rfl
  refine ⟨⟨[], by rw [hsame, List.append_nil], ?_⟩, (NotificationDb.keeps_applyAll w db).read,
    fun n hn hread => ?_,
    fun e he item hitem => ?_, fun user => ?_, fun user => ?_⟩
  · rw [List.filterMap_cons_none ha]
    rfl
  · rw [hsame] at hn
    rcases NotificationOp.read_applyAll hread with hread | ⟨o, ho, hid⟩
    · exact .inl hread
    · exact .inr ⟨_, List.mem_singleton.2 rfl, hmarks n hn o ho hid⟩
  · rw [List.mem_singleton.1 he] at hitem ⊢
    rw [hsame]
    exact hshown item hitem
  · have := hle user
    simpa [hnone user] using this
  · have := hge user
    simpa [hnone user] using this

/-- A request to the organization service, with the notification that it adds. -/
theorem InboxKept.of_org {r : OrgRequest} {a : OrgAnswer} {ops : List OrgOp}
    (hcontent : ((ops.map NotificationOp.org).filterMap NotificationOp.added).map
      Notification.content = (r.announcement a).toList)
    (hown : ∀ o ∈ ops.map NotificationOp.org, o.Own db) :
    InboxKept cfg db [(.org r, .org a)] (applyAll notificationTables.backend (ops.map .org) db) := by
  have hadmits : ∀ n ∈ (ops.map NotificationOp.org).filterMap NotificationOp.added,
      db.orgs.notifications.admits n = true := by
    intro n hn
    obtain ⟨o, ho, hadded⟩ := List.mem_filterMap.1 hn
    have hown' := hown o ho
    rw [NotificationOp.added_eq_some hadded] at hown'
    exact hown'
  have hone : ((ops.map NotificationOp.org).filterMap NotificationOp.added).length ≤ 1 := by
    have hlen := congrArg List.length hcontent
    rw [List.length_map] at hlen
    rw [hlen]
    cases r.announcement a <;> simp
  have hrows := NotificationOp.rows_applyAll hadmits hone
  have hread := NotificationOp.readAt_org ops db
  generalize (ops.map NotificationOp.org).filterMap NotificationOp.added =
    added at hcontent hadmits hrows
  have hunread : ∀ user,
      NotificationDb.unread user (applyAll notificationTables.backend (ops.map .org) db) =
      db.unread user + announcedTo user (.org r, .org a) := by
    intro user
    have hnew : added.countP (fun n => n.userId == user && (db.readAt n.id).isNone) =
        added.countP fun n => n.userId == user := by
      refine List.countP_congr fun n hn => ?_
      rw [NotificationDb.readAt_of_admits (hadmits n hn), Option.isNone_none, Bool.and_true]
    have hannounced : added.countP (fun n => n.userId == user) = announcedTo user (.org r, .org a) := by
      have hmap : added.countP (fun n => n.userId == user) = (added.map Notification.content).countP
          fun c => c.userId == user := by
        rw [List.countP_map]
        rfl
      rw [hmap, hcontent, announcedTo, announcement]
      cases r.announcement a with
      | none => rfl
      | some c => simp [List.countP_cons]
    show List.countP _ _ = List.countP _ _ + _
    rw [hread, hrows, List.countP_append, hnew, hannounced]
  refine ⟨⟨added, hrows, ?_⟩,
    fun id h => by rwa [hread], fun n _ h => .inl (by rwa [hread] at h), fun e he item hitem => ?_,
    fun user => ?_, fun user => ?_⟩
  · rw [hcontent]
    cases h : r.announcement a <;> simp [announcement, h]
  · rw [List.mem_singleton.1 he] at hitem
    cases hitem
  · simp [hunread user, markedBy]
  · simp [hunread user, markedBy]

/-- What the history says after a commit. -/
theorem InboxRequest.Writes.kept (h : r.Writes cfg a w db) (hown : ∀ o ∈ w, o.Own db) :
    InboxKept cfg db [(r, a)] (applyAll notificationTables.backend w db) := by
  cases r with
  | org r =>
    cases a with
    | org a =>
      obtain ⟨ops, rfl, hcontent⟩ := h
      exact InboxKept.of_org hcontent hown
    | _ => exact h.elim
  | listNotifications caller unreadOnly limit offset =>
    cases a with
    | notifications items =>
      obtain ⟨rfl, hitems⟩ := h
      refine InboxKept.of_marks rfl rfl (by simp) hitems (fun user => ?_) fun user => ?_
      · exact Nat.le_refl _
      · exact Nat.le_refl _
    | _ => exact h.elim
  | markRead caller notificationId =>
    cases a with
    | notification item =>
      obtain ⟨hw, n, hn, hcaller, hid, hitem⟩ := h
      have hshown : ∀ item' ∈ [item], ∃ n ∈ db.orgs.notifications.rows, n.userId = caller ∧
          ∃ readAt, item' = cfg.response (n, readAt) := by
        rintro item' hmem
        rw [List.mem_singleton.1 hmem]
        exact ⟨n, hn, hcaller, hitem⟩
      rcases hw with rfl | ⟨time, rfl⟩
      · refine InboxKept.of_marks rfl rfl (by simp) hshown (fun user => ?_) fun user => ?_
        · exact Nat.le_refl _
        · exact Nat.le_add_right _ _
      subst hid
      have hunread : ∀ user, NotificationDb.unread user (db.setReadAt n.id time) ≤ db.unread user ∧
          db.unread user ≤ NotificationDb.unread user (db.setReadAt n.id time) +
              if caller = user then 1 else 0 := by
        intro user
        cases hread : db.readAt n.id with
        | none =>
          have hone := NotificationDb.unread_setReadAt time user hn hread
          rw [hcaller] at hone
          omega
        | some t =>
          rw [NotificationDb.unread_setReadAt_of_read (by rw [hread]; rfl)]
          omega
      refine InboxKept.of_marks rfl rfl ?_ hshown (fun user => (hunread user).1)
        fun user => (hunread user).2
      intro n' hn' o ho hid
      rw [List.mem_singleton.1 ho] at hid
      have hsame : n = n' :=
        Table.eq_of_clash hn hn' (by simpa [Schema.clash, NotificationOp.marks] using hid)
      exact hsame ▸ ⟨hcaller, rfl⟩
    | _ => exact h.elim
  | markAllRead caller =>
    cases a with
    | marked count message =>
      obtain ⟨ids, time, rfl, rfl, hnodup, hrows⟩ := h
      have hids : ∀ id ∈ ids, db.readAt id = none ∧ ∃ n ∈ db.orgs.notifications.rows,
          n.userId = caller ∧ n.id = id :=
        fun id hid => ⟨hown _ (List.mem_map_of_mem hid), hrows id hid⟩
      have hunread := fun user => NotificationOp.unread_marked time user hnodup hids
      refine InboxKept.of_marks ?_ rfl ?_ (by simp [InboxAnswer.items])
        (fun user => Nat.le_of_eq (hunread user))
        fun user => Nat.le_of_eq (hunread user).symm
      · exact List.filterMap_eq_nil_iff.2 fun o ho => by
          obtain ⟨id, -, rfl⟩ := List.mem_map.1 ho
          rfl
      · intro n hn o ho hid
        obtain ⟨id, hmem, rfl⟩ := List.mem_map.1 ho
        obtain ⟨n', hn', hcaller, hid'⟩ := hrows id hmem
        have hsame : n' = n := Table.eq_of_clash hn' hn (by
          have hid'' : id = n.id := Option.some.inj hid
          simp [Schema.clash, hid', hid''])
        exact hsame ▸ hcaller
    | _ => exact h.elim

end

/-! ### Whole runs -/

/-- The interleaved requests. -/
abbrev InboxSystem : Type 1 := System notificationTables.backend InboxRequest InboxAnswer

abbrev InboxEvent : Type := Event notificationTables.backend InboxRequest

/-- One step of some transaction. -/
abbrev inboxNext (cfg : InboxConfig) : InboxSystem → InboxEvent → InboxSystem :=
  System.next (InboxRequest.prog cfg)

theorem NotificationOp.own_of_check {o : NotificationOp} {w : List NotificationOp} {db : NotificationDb}
    (h : o.check (applyAll notificationTables.backend w db) = .ok ()) : o.Own db := by
  have hkeeps := NotificationDb.keeps_applyAll w db
  cases o with
  | setReadAt id time => trivial
  | setUnreadAt id time =>
    have hnone : ((applyAll notificationTables.backend w db : NotificationDb).readAt id).isNone
        = true := by
      by_contra hsome
      simp [check, hsome] at h
    by_contra hne
    have hread := hkeeps.read id (Option.isSome_iff_ne_none.2 hne)
    rw [Option.isNone_iff_eq_none] at hnone
    rw [hnone] at hread
    cases hread
  | org o =>
    cases o with
    | addNotification n =>
      have hadmits :
          (applyAll notificationTables.backend w db : NotificationDb).orgs.notifications.admits n
              = true := by
        by_contra hno
        simp [check, OrgOp.check, hno] at h
      exact Table.admits_iff.2 fun n' hn' => Table.admits_iff.1 hadmits n' (hkeeps.rows n' hn')
    | _ => trivial

theorem NotificationOp.own_apply {o o' : NotificationOp} {db : NotificationDb}
    (hkeys : ∀ key ∈ o.keys, key ∉ o'.keys) (h : o.Own db) : o.Own (o'.apply db) := by
  cases o with
  | setReadAt id time => trivial
  | setUnreadAt id time =>
    have hread : ∀ id' time', OrgKey.notificationRow id ∉ [OrgKey.notificationRow id'] →
        (db.setReadAt id' time').readAt id = none := by
      intro id' time' hne
      rw [← Option.not_isSome_iff_eq_none]
      intro hsome
      rcases NotificationDb.isSome_setReadAt hsome with hsome | rfl
      · rw [show db.readAt id = none from h] at hsome
        cases hsome
      · exact hne (List.mem_singleton.2 rfl)
    have hkey := hkeys (.notificationRow id) (List.mem_singleton.2 rfl)
    cases o' with
    | org o' => exact h
    | setReadAt id' time' => exact hread id' time' hkey
    | setUnreadAt id' time' => exact hread id' time' hkey
  | org o =>
    cases o with
    | addNotification n =>
      have hadmits : db.orgs.notifications.admits n = true := h
      show (o'.apply db).orgs.notifications.admits n = true
      cases hadded : o'.added with
      | none => rwa [notifications_apply hadded]
      | some n' =>
        -- another new row
        have hkey := hkeys (.notificationRow n.id) (List.mem_singleton.2 rfl)
        rw [added_eq_some hadded] at hkey ⊢
        show (OrgOp.apply (.addNotification n') db.orgs).notifications.admits n = true
        rw [OrgOp.notifications_apply]
        refine Table.admits_iff.2 fun n'' hn'' => ?_
        rcases Table.mem_or_eq_of_mem_insert hn'' with hn'' | rfl
        · exact Table.admits_iff.1 hadmits n'' hn''
        · intro hclash
          refine hkey (List.mem_singleton.2 ?_)
          rw [beq_iff_eq.1 hclash]
    | _ => trivial

theorem inboxBounded (cfg : InboxConfig) :
    Bounded (InboxRequest.prog cfg) (fun _ => True) NotificationDb.Keeps NotificationOp.Own
    (InboxRequest.Writes cfg) where
  refl := NotificationDb.Keeps.refl
  trans := keeps_trans
  inv _ _ _ _ := trivial
  check _ _ _ _ h := NotificationOp.own_of_check h
  stable _ _ _ hkeys h := NotificationOp.own_apply hkeys h
  safe r db _ := r.prog_safe cfg db
  commit _ _ w db _ _ := NotificationDb.keeps_applyAll w db

/-- The invariant of a run. -/
structure InboxRun (cfg : InboxConfig) (db₀ : NotificationDb) (s : InboxSystem) : Prop where
  guarded : s.Guarded (fun _ => True) (fun _ _ => NotificationDb.Keeps) NotificationOp.Own
    (InboxRequest.Writes cfg)
  kept : InboxKept cfg db₀ s.history s.db

theorem InboxRun.next {cfg : InboxConfig} {db₀ : NotificationDb} {s : InboxSystem}
    (h : InboxRun cfg db₀ s) (e : InboxEvent) :
    InboxRun cfg db₀ (inboxNext cfg s e) := by
  refine ⟨(inboxBounded cfg).next_guarded h.guarded, ?_⟩
  show InboxKept cfg db₀ (System.next (InboxRequest.prog cfg) s e).history
    (System.next (InboxRequest.prog cfg) s e).db
  rw [System.next_history (InboxRequest.prog cfg) s e, System.next_db (InboxRequest.prog cfg) s e]
  rcases hc : s.commits e with _ | ⟨r, a, w⟩
  · rw [List.append_nil]
    exact h.kept
  · obtain ⟨t, ht, d, rfl⟩ := System.commits_some hc
    have hwrites : r.Writes cfg a w s.db := (inboxBounded cfg).relies.of_commits h.guarded hc
    exact h.kept.append (hwrites.kept (h.guarded.owned _ ht))

theorem InboxRun.reached (cfg : InboxConfig) (db : NotificationDb) (world : World Unit)
    (es : List InboxEvent) :
    InboxRun cfg db (run (inboxNext cfg) (System.init db world) es) :=
  run_invariant (fun _ e h => h.next e) ⟨(System.init_quiet _ _).guarded trivial, .nil cfg db⟩ es

/-- In every interleaving of notification and organization requests: the notifications added are
those of the committed `add_member` requests, in the order of the commits; no notification is read
without a request of its user, or unread again; an answer shows notifications of the caller alone;
and the counts of "read all", together with what is unread, never exceed what was there and was
added, and fall short of it by no more than one for each notification read alone. -/
theorem inbox_kept (cfg : InboxConfig) (db : NotificationDb) (world : World Unit)
    (es : List InboxEvent) :
    Always (inboxNext cfg) (fun s => InboxKept cfg db s.history s.db) (System.init db world) es := by
  refine Kit.always_iff.2 fun es₁ es₂ _ => ?_
  have hrun : InboxRun cfg db (run (inboxNext cfg) (System.init db world) es₁) :=
    .reached cfg db world es₁
  exact hrun.kept

/-! ### Requests that start later -/

/-- Of the notifications that were stored when the request started, those that it leaves read. -/
def InboxRequest.LeavesRead (rows : List Notification) : InboxRequest → NotificationDb → Prop
  | markAllRead caller, db => ∀ n ∈ rows, n.userId = caller → (db.readAt n.id).isSome = true
  | _, _ => True

/-- They are read before the commit, or the request has written that they are. -/
def InboxRequest.WritesRead (rows : List Notification) : InboxRequest → List NotificationOp →
    NotificationDb → Prop
  | markAllRead caller, w, db => ∀ n ∈ rows, n.userId = caller → db.hasNotification n.id = true ∧
      ((db.readAt n.id).isSome = true ∨ ∃ time, .setUnreadAt n.id time ∈ w)
  | _, _, _ => True

section
variable {cfg : InboxConfig} {r : InboxRequest} {rows : List Notification} {w : List NotificationOp}
    {db db' : NotificationDb}

theorem InboxRequest.LeavesRead.mono (h : r.LeavesRead rows db) (hdb : db.Keeps db') :
    r.LeavesRead rows db' := by
  cases r with
  | markAllRead caller => exact fun n hn huser => hdb.read n.id (h n hn huser)
  | _ => trivial

theorem InboxRequest.WritesRead.commit (h : r.WritesRead rows w db) :
    r.LeavesRead rows (applyAll notificationTables.backend w db) := by
  cases r with
  | markAllRead caller =>
    intro n hn huser
    obtain ⟨hstored, hread | ⟨time, hmem⟩⟩ := h n hn huser
    · exact (NotificationDb.keeps_applyAll w db).read n.id hread
    · exact NotificationOp.read_of_mem hstored hmem
  | _ => trivial

/-- The statement finds the notifications that were stored when the request started, unless they are
read. -/
theorem InboxRequest.writesRead_safe (cfg : InboxConfig) (r : InboxRequest)
    (hrows : ∀ n ∈ rows, n ∈ db.orgs.notifications.rows) :
    InboxSafe (r.prog cfg) (fun _ d w db => r.WritesRead rows (w ++ d) db) [] [] db := by
  cases r with
  | markAllRead caller =>
    refine currentUser_safe
      fun u db₁ h₁ hid => markAllRead_safe fun time db₂ h₂ db₃ h₃ _ n hn huser => ?_
    have hmem : n ∈ db₂.orgs.notifications.rows := h₂.rows n (h₁.rows n (hrows n hn))
    refine ⟨NotificationDb.hasNotification_iff.2 ⟨n, h₃.rows n hmem, rfl⟩, ?_⟩
    cases hread : db₂.readAt n.id with
    | some time' => exact .inl (h₃.read n.id (by rw [hread]; rfl))
    | none =>
      have hunread : n.id ∈ Notifications.NotificationRepository.unreadOf u.id db₂ :=
        mem_unreadOf.2 ⟨hread, n, hmem, huser.trans hid.symm, rfl⟩
      exact .inr ⟨time, List.mem_append_left _ (List.mem_map_of_mem hunread)⟩
  | org r => exact (prog_safe cfg (.org r) db).mono fun _ _ _ _ _ => trivial
  | listNotifications caller unreadOnly limit offset =>
    exact (prog_safe cfg (.listNotifications caller unreadOnly limit offset) db).mono
      fun _ _ _ _ _ => trivial
  | markRead caller notificationId =>
    exact (prog_safe cfg (.markRead caller notificationId) db).mono fun _ _ _ _ _ => trivial

end

/-- The requests "read all" that arrive after `s` and commit until `s'` leave read every
notification of their caller that `s` stores. -/
def ReadsAll (s s' : InboxSystem) : Prop :=
  ∀ (i : Nat) caller answer, s.threads.length ≤ i →
    s'.threads[i]? = some ⟨.markAllRead caller, .committed answer⟩ →
    ∀ n ∈ s.db.orgs.notifications.rows, n.userId = caller → (s'.db.readAt n.id).isSome = true

/-- Once a "read all" has committed, no notification that was stored when it arrived is unread
again, whatever other transactions were in flight and follow. -/
theorem inbox_read_all (cfg : InboxConfig) (db : NotificationDb) (world : World Unit)
    (before after : List InboxEvent) :
    ReadsAll (run (inboxNext cfg) (System.init db world) before)
      (run (inboxNext cfg) (System.init db world) (before ++ after)) := by
  rw [run_append]
  have hrun : InboxRun cfg db (run (inboxNext cfg) (System.init db world) before) :=
    .reached cfg db world before
  generalize run (inboxNext cfg) (System.init db world) before = s at hrun
  intro i caller answer hi hanswered
  have hanswering : (run (inboxNext cfg) s after).Answering s.threads.length NotificationDb.Keeps
      NotificationOp.Own
      (fun r _ w db => r.WritesRead s.db.orgs.notifications.rows w db)
      (fun r _ db => r.LeavesRead s.db.orgs.notifications.rows db) :=
    (inboxBounded cfg).answers_from
      (J := fun db : NotificationDb => ∀ n ∈ s.db.orgs.notifications.rows,
        n ∈ db.orgs.notifications.rows)
      hrun.guarded (fun _ _ h hdb n hn => hdb.rows n (h n hn)) (fun r db h => r.writesRead_safe cfg h)
      (fun _ _ _ _ h => h.commit) (fun _ _ _ _ h hdb => h.mono hdb) (fun _ hn => hn) after
  exact hanswering.answers i _ _ hi hanswered

end TrafficPlatform
