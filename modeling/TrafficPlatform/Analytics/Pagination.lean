import TrafficPlatform.Analytics.Rollup
import TrafficPlatform.Kit.Paging

/-!
# Pages of a listing

Five listings order their rows by `created_at` alone and cut a page from them. Two requests for two
pages are two queries, and PostgreSQL orders rows of one `created_at` as it likes in each.
-/

namespace TrafficPlatform
open Kit

/-- Columns that the records leave out, by the id of the row. -/
structure ListedColumns where
  createdAt : Uuid → Time
  readAt : Uuid → Option Time

/-- `ORDER BY created_at DESC LIMIT … OFFSET …`: the items are a page of some answer. -/
def Lists {ρ : Type} (createdAt : ρ → Time) (rows : List ρ) (limit offset : Nat)
    (items : List ρ) : Prop :=
  ∃ out, Ordered createdAt rows out ∧ items = page limit offset out

/-! ### The queries -/

def RequestLogRepository.Searches (cases : CaseMapping) (organizationId : Uuid)
    (f : RequestLogFilter) (limit offset : Nat) (db : PlatformDb) : List RequestLog → Prop :=
  Lists (·.createdAt) (db.requestLogs.select (f.conditions cases organizationId)) limit offset

def AuditLogRepository.ListsForOrg (organizationId : Uuid) (limit offset : Nat) (db : PlatformDb) :
    List AuditLog → Prop :=
  Lists (·.createdAt) (db.auditLogs.select fun r => r.organizationId == some organizationId)
    limit offset

def ApiRepository.ListsInOrg (columns : ListedColumns) (organizationId : Uuid) (limit offset : Nat)
    (db : PlatformDb) :
    List Api → Prop :=
  Lists (fun a => columns.createdAt a.id)
    (db.apis.select fun a => a.organizationId == organizationId) limit offset

/-- `organizations JOIN organization_members`, for the memberships of the user. -/
def OrganizationRepository.joined (userId : Uuid) (db : PlatformDb) : List Organization :=
  db.orgs.organizations.rows.flatMap fun o =>
    (db.orgs.members.select fun m => m.organizationId == o.id && m.userId == userId).map fun _ => o

def OrganizationRepository.ListsForUser (columns : ListedColumns) (userId : Uuid)
    (limit offset : Nat) (db : PlatformDb) :
    List Organization → Prop :=
  Lists (fun o => columns.createdAt o.id) (OrganizationRepository.joined userId db) limit offset

def NotificationRepository.ListsForUser (columns : ListedColumns) (userId : Uuid)
    (unreadOnly : Bool) (limit offset : Nat) (db : PlatformDb) : List Notification → Prop :=
  Lists (fun n => columns.createdAt n.id)
    (db.orgs.notifications.select
      fun n => n.userId == userId && (!unreadOnly || (columns.readAt n.id).isNone)) limit offset

/-! ### Every row once -/

/-- The pages of `limit` rows at the offsets `0`, `limit`, `2 * limit`, … together hold every row
once, for as many of them as the rows need. -/
def Paginates {ρ : Type} (rows : List ρ) (limit : Nat) (lists : Nat → List ρ → Prop) : Prop :=
  ∀ n, rows.length ≤ n * limit → ∀ items : Nat → List ρ, (∀ k, lists (k * limit) (items k)) →
    ((List.range n).flatMap items).Perm rows

/-- No two rows with one `created_at` are on two pages. -/
def TiesOnOnePage {ρ : Type} (createdAt : ρ → Time) (rows : List ρ) (limit : Nat) : Prop :=
  ∀ r ∈ rows, OnOnePage createdAt limit rows r

theorem paginates_iff {ρ : Type} {createdAt : ρ → Time} {rows : List ρ} {limit : Nat}
    (hnodup : rows.Nodup) (hL : 0 < limit) :
    Paginates rows limit (Lists createdAt rows limit) ↔ TiesOnOnePage createdAt rows limit := by
  constructor
  · intro h
    have hn : rows.length ≤ rows.length * limit := Nat.le_mul_of_pos_right _ hL
    refine (pages_perm_iff hnodup hL hn).1 fun answers hanswers => ?_
    exact h rows.length hn (fun k => page limit (k * limit) (answers k))
      fun k => ⟨answers k, hanswers k, rfl⟩
  · intro h n hn items hitems
    choose answers hanswers hpage using hitems
    have hperm := (pages_perm_iff hnodup hL hn).2 h answers hanswers
    rwa [show (fun k => page limit (k * limit) (answers k)) = items from funext
      fun k => (hpage k).symm] at hperm

section
variable {ρ : Type} [Schema ρ] {t : Table ρ} {p : ρ → Bool}

theorem nodup_select (hrefl : ∀ r : ρ, Schema.clash r r = true) : (t.select p).Nodup :=
  (t.distinct.filter p).imp fun {a b} hab he => hab (by rw [← he]; exact hrefl a)

end

/-- A user has one membership of an organization, so that the join has no row twice. -/
theorem joined_eq (userId : Uuid) (db : PlatformDb) : OrganizationRepository.joined userId db =
    db.orgs.organizations.select
        fun o => db.orgs.members.rows.any
            fun m => m.organizationId == o.id && m.userId == userId := by
  have hone : ∀ o : Organization,
      (db.orgs.members.select fun m => m.organizationId == o.id && m.userId == userId).map
        (fun _ => o) =
      if db.orgs.members.rows.any (fun m => m.organizationId == o.id && m.userId == userId) then
          [o] else [] := by
    intro o
    have hunique : ∀ a b : OrganizationMember, (a.organizationId == o.id && a.userId == userId) = true →
        (b.organizationId == o.id && b.userId == userId) = true → Schema.clash a b = true := by
      intro a b ha hb
      simp only [Bool.and_eq_true, beq_iff_eq] at ha hb
      exact OrganizationMember.clash_iff.2 (.inr ⟨ha.1.trans hb.1.symm, ha.2.trans hb.2.symm⟩)
    rw [Table.select_eq_toList hunique]
    cases hfound : db.orgs.members.one fun m => m.organizationId == o.id && m.userId == userId with
    | none =>
      rw [if_neg]
      · rfl
      · rw [List.any_eq_true]
        rintro ⟨m, hm, hp⟩
        exact Table.one_eq_none.1 hfound m hm hp
    | some m =>
      rw [if_pos (List.any_eq_true.2 ⟨m, Table.mem_of_one hfound, Table.pred_of_one hfound⟩)]
      rfl
  unfold OrganizationRepository.joined
  show _ = List.filter _ db.orgs.organizations.rows
  generalize db.orgs.organizations.rows = organizations
  induction organizations with
  | nil => rfl
  | cons o organizations ih =>
    rw [List.flatMap_cons, ih, List.filter_cons, hone o]
    split <;> rfl

/-- Pagination: the pages of a listing neither skip nor repeat a row, whatever the order of the rows
with one `created_at` in each query, exactly if the rows of each `created_at` are on one page. -/
theorem pagination_exact_iff (columns : ListedColumns) (db : PlatformDb) (limit : Nat)
    (hlimit : 0 < limit) :
    (∀ cases organizationId f, let rows := db.requestLogs.select (f.conditions cases organizationId)
      Paginates rows limit
        (fun offset => RequestLogRepository.Searches cases organizationId f limit offset db) ↔
        TiesOnOnePage (·.createdAt) rows limit) ∧
    (∀ organizationId, let rows := db.auditLogs.select fun r => r.organizationId == some organizationId
      Paginates rows limit
        (fun offset => AuditLogRepository.ListsForOrg organizationId limit offset db) ↔
        TiesOnOnePage (·.createdAt) rows limit) ∧
    (∀ organizationId, let rows := db.apis.select fun a => a.organizationId == organizationId
      Paginates rows limit
        (fun offset => ApiRepository.ListsInOrg columns organizationId limit offset db) ↔
        TiesOnOnePage (fun a => columns.createdAt a.id) rows limit) ∧
    (∀ userId, let rows := db.orgs.organizations.select fun o =>
        db.orgs.members.rows.any fun m => m.organizationId == o.id && m.userId == userId
      Paginates rows limit
        (fun offset => OrganizationRepository.ListsForUser columns userId limit offset db) ↔
        TiesOnOnePage (fun o => columns.createdAt o.id) rows limit) ∧
    ∀ userId unreadOnly, let rows := db.orgs.notifications.select fun n =>
        n.userId == userId && (!unreadOnly || (columns.readAt n.id).isNone)
      Paginates rows limit
        (fun offset => NotificationRepository.ListsForUser columns userId unreadOnly limit
          offset db) ↔
        TiesOnOnePage (fun n => columns.createdAt n.id) rows limit := by
  refine ⟨fun cases organizationId f => ?_,
    fun organizationId => ?_,
      fun organizationId => ?_, fun userId => ?_, fun userId unreadOnly => ?_⟩
  · exact paginates_iff (nodup_select fun r => by simp [Schema.clash]) hlimit
  · exact paginates_iff (nodup_select fun r => by simp [Schema.clash]) hlimit
  · exact paginates_iff (nodup_select fun r => by simp [Schema.clash]) hlimit
  · unfold OrganizationRepository.ListsForUser
    rw [joined_eq]
    exact paginates_iff (nodup_select fun r => by simp [Schema.clash]) hlimit
  · exact paginates_iff (nodup_select fun r => by simp [Schema.clash]) hlimit

/-- Two logs of one `created_at`. -/
def sampleTiedDb : PlatformDb :=
  { sampleDailyDb with
    requestLogs := ⟨[sampleLog 201 5 200, { sampleLog 201 5 500 with id := 202 }], by decide⟩ }

def sampleColumns : ListedColumns := ⟨fun id => epoch + id, fun _ => none⟩

def sampleFilter : RequestLogFilter := ⟨none, none, none, none, none, none, none⟩

/-- A page of two rows holds both. -/
theorem pagination_exact_iff_pair :
    Paginates (sampleTiedDb.requestLogs.select (sampleFilter.conditions ⟨id, id⟩ 5)) 2
    fun offset => RequestLogRepository.Searches ⟨id, id⟩ 5 sampleFilter 2 offset sampleTiedDb := by
  refine ((pagination_exact_iff sampleColumns sampleTiedDb 2 (by decide)).1
    ⟨id, id⟩ 5 sampleFilter).2 ?_
  unfold TiesOnOnePage OnOnePage
  decide +kernel

/-- Pages of one row: the first query may put the log `201` first, and the second one put it second. -/
theorem pagination_repeats : ¬ ∀ (cases : CaseMapping) (organizationId : Uuid)
    (f : RequestLogFilter) (db : PlatformDb) (limit : Nat),
    0 < limit → Paginates (db.requestLogs.select (f.conditions cases organizationId)) limit
      fun offset => RequestLogRepository.Searches cases organizationId f limit offset db := by
  intro h
  have hties : TiesOnOnePage (fun r : RequestLog => r.createdAt)
      (sampleTiedDb.requestLogs.select (sampleFilter.conditions ⟨id, id⟩ 5)) 1 :=
    (paginates_iff (nodup_select fun r => by simp [Schema.clash]) (by decide)).1
      (h ⟨id, id⟩ 5 sampleFilter sampleTiedDb 1 (by decide))
  revert hties
  unfold TiesOnOnePage OnOnePage
  decide +kernel

end TrafficPlatform
