import TrafficPlatform.Organizations
import TrafficPlatform.Kit.Paging
import TrafficPlatform.Kit.Embed
import Mathlib.Data.List.Sort

/-!
# In-app notifications

`app/services/notification.py` with its repository and the routes of `app/api/notifications.py`,
next to the organization requests, which are what notifies (`add_member`).
-/

namespace TrafficPlatform
open Kit

/-! ### The database -/

theorem OrgOp.notifications_apply (o : OrgOp) (db : OrgDb) : (o.apply db).notifications = match o with
    | addNotification n => db.notifications.insert n
    | _ => db.notifications := by
  cases o with
  | addMember m => simp only [apply, OrgDb.addMember]; split <;> rfl
  | setMemberRole id roleId => simp only [apply, OrgDb.setMemberRole]; split <;> rfl
  | _ => rfl

theorem OrgOp.mem_notifications_apply {o : OrgOp} {db : OrgDb} {n : Notification}
    (hn : n ∈ db.notifications.rows) :
    n ∈ (o.apply db).notifications.rows := by
  rw [o.notifications_apply db]
  split
  · exact Table.mem_insert_of_mem hn
  · exact hn

/-- The tables of the organization service, and the column `read_at` of the notifications by their
primary key. -/
structure NotificationDb where
  orgs : OrgDb
  readAt : Uuid → Option Time
  stored : ∀ id, (readAt id).isSome = true → ∃ n ∈ orgs.notifications.rows, n.id = id

/-- A row write: one of the organization service, the `UPDATE` of a loaded notification, or a row of the
`UPDATE … WHERE read_at IS NULL`. -/
inductive NotificationOp
  | org (o : OrgOp)
  | setReadAt (id : Uuid) (time : Time)
  | setUnreadAt (id : Uuid) (time : Time)
deriving DecidableEq, Repr

namespace NotificationDb

def hasNotification (db : NotificationDb) (id : Uuid) : Bool :=
  db.orgs.notifications.rows.any fun n => n.id == id

def org (db : NotificationDb) (o : OrgOp) : NotificationDb where
  orgs := o.apply db.orgs
  readAt := db.readAt
  stored id h := by
    obtain ⟨n, hn, hid⟩ := db.stored id h
    exact ⟨n, OrgOp.mem_notifications_apply hn, hid⟩

def setReadAt (db : NotificationDb) (id : Uuid) (time : Time) : NotificationDb :=
  if h : db.hasNotification id = true then
    { db with
      readAt := Function.update db.readAt id (some time)
      stored := fun id' h' => by
        rw [Function.update_apply] at h'
        split at h'
        · rename_i hid
          obtain ⟨n, hn, hnid⟩ := List.any_eq_true.1 h
          exact ⟨n, hn, (beq_iff_eq.1 hnid).trans hid.symm⟩
        · exact db.stored id' h' }
  else db

/-- The unread notifications of the user. -/
def unread (user : Uuid) (db : NotificationDb) : Nat :=
  db.orgs.notifications.rows.countP fun n => n.userId == user && (db.readAt n.id).isNone

end NotificationDb

namespace NotificationOp

def apply : NotificationOp → NotificationDb → NotificationDb
  | org o, db => db.org o
  | setReadAt id time, db => db.setReadAt id time
  | setUnreadAt id time, db => db.setReadAt id time

/-- The `UPDATE` of a loaded row fails when the row is gone; the other `UPDATE` writes unread rows
only. -/
def check : NotificationOp → NotificationDb → Except Failure Unit
  | org o, db => o.check db.orgs
  | setReadAt id _, db => if db.hasNotification id then .ok () else .error .staleDataError
  | setUnreadAt id _, db => if (db.readAt id).isNone then .ok () else .error .staleDataError

def keys : NotificationOp → List OrgKey
  | org o => o.keys
  | setReadAt id _ => [.notificationRow id]
  | setUnreadAt id _ => [.notificationRow id]

/-- The notification that the write adds. -/
def added : NotificationOp → Option Notification
  | org (.addNotification n) => some n
  | _ => none

/-- The notification that the write marks as read. -/
def marks : NotificationOp → Option Uuid
  | org _ => none
  | setReadAt id _ => some id
  | setUnreadAt id _ => some id

end NotificationOp

abbrev notificationTables : Tables where
  Outside := Unit
  Input := Unit
  Db := NotificationDb
  Op := NotificationOp
  Key := OrgKey
  apply := NotificationOp.apply
  check := NotificationOp.check
  keys := NotificationOp.keys

/-- A handler of the notification service. -/
abbrev Inbox (α : Type) : Type 1 := Prog notificationTables.backend α

/-- The organization service is part of it. -/
def orgNotifications : Embedding orgTables.backend notificationTables.backend where
  db := NotificationDb.orgs
  world := id
  put w _ := w
  env := id
  err := id
  op := .org
  db_apply _ _ := rfl
  check_op o db := by
    show o.check db.orgs = (o.check db.orgs).mapError id
    cases o.check db.orgs <;> rfl
  world_put _ _ := rfl

/-! ### The service and its routes -/

/-- The column `created_at`, which the database fills in and no request changes. -/
structure InboxConfig extends Config where
  createdAt : Uuid → Time

/-- What a response says of a notification. -/
structure NotificationResponse where
  id : Uuid
  type : String
  title : String
  body : String
  organizationId : Option Uuid
  readAt : Option Time
  createdAt : Time
deriving DecidableEq, Repr

/-- `NotificationResponse.model_validate`. -/
def InboxConfig.response (cfg : InboxConfig) (row : Notification × Option Time) :
    NotificationResponse :=
  ⟨row.1.id, row.1.type, row.1.title, row.1.body, row.1.organizationId, row.2, cfg.createdAt row.1.id⟩

namespace Notifications

namespace NotificationRepository

/-- `WHERE user_id = … [AND read_at IS NULL] ORDER BY created_at DESC LIMIT … OFFSET …`. -/
def rowsForUser (cfg : InboxConfig) (userId : Uuid) (unreadOnly : Bool) (limit offset : Nat)
    (db : NotificationDb) :
    List (Notification × Option Time) :=
  page limit offset
    (((db.orgs.notifications.select
      fun n => n.userId == userId && (!unreadOnly || (db.readAt n.id).isNone)).insertionSort
    fun n n' => cfg.createdAt n'.id ≤ cfg.createdAt n.id).map fun n => (n, db.readAt n.id))

def listForUser (cfg : InboxConfig) (userId : Uuid) (unreadOnly : Bool) (limit offset : Nat) :
    Inbox (List (Notification × Option Time)) :=
  .query (rowsForUser cfg userId unreadOnly limit offset)

def getForUser (notificationId userId : Uuid) : Inbox (Option (Notification × Option Time)) :=
  .query fun db =>
    (db.orgs.notifications.one fun n => n.id == notificationId && n.userId == userId).map
      fun n => (n, db.readAt n.id)

/-- The rows of `WHERE user_id = … AND read_at IS NULL`. -/
def unreadOf (userId : Uuid) (db : NotificationDb) : List Uuid :=
  (db.orgs.notifications.select fun n => n.userId == userId && (db.readAt n.id).isNone).map (·.id)

/-- `UPDATE notifications SET read_at = … WHERE …`, and its `rowcount`. -/
def markAllRead (userId : Uuid) : Inbox Nat := do
  let time ← now
  .stmt (fun _ db => .ok ((unreadOf userId db).length,
    (unreadOf userId db).map fun id => .setUnreadAt id time)) .ret

end NotificationRepository

namespace NotificationService

/-- A notification that is read already keeps its time. -/
def markRead (userId notificationId : Uuid) : Inbox (Notification × Option Time) := do
  let row ← NotificationRepository.getForUser notificationId userId
  match row with
  | none => .raise (ErrorClass.notFoundError.error "Notification not found.")
  | some (notification, some time) => do
    .flushSession
    return (notification, some time)
  | some (notification, none) => do
    let time ← now
    .set (.setReadAt notification.id time)
    .flushSession
    return (notification, some time)

end NotificationService

end Notifications

/-- A call of `/notifications…` by the user `caller`, or of `/organizations/{org_id}…`. -/
inductive InboxRequest
  | org (r : OrgRequest)
  | listNotifications (caller : Uuid) (unreadOnly : Bool) (limit offset : Nat)
  | markRead (caller notificationId : Uuid)
  | markAllRead (caller : Uuid)
deriving DecidableEq, Repr

/-- The body of the response; that of `mark_all_read` is the message that names the count. -/
inductive InboxAnswer
  | org (a : OrgAnswer)
  | notifications (items : List NotificationResponse)
  | notification (item : NotificationResponse)
  | marked (count : Nat) (message : String)
deriving DecidableEq, Repr

namespace InboxRequest
open Notifications

def currentUser (caller : Uuid) : Inbox User :=
  Prog.embed orgNotifications (Organizations.getCurrentUser caller)

/-- The handlers. -/
def prog (cfg : InboxConfig) : InboxRequest → Inbox InboxAnswer
  | org r => do
    let a ← Prog.embed orgNotifications (r.prog cfg.toConfig)
    return .org a
  | listNotifications caller unreadOnly limit offset => do
    let user ← currentUser caller
    let items ← NotificationRepository.listForUser cfg user.id unreadOnly limit offset
    return .notifications (items.map cfg.response)
  | markRead caller notificationId => do
    let user ← currentUser caller
    let n ← NotificationService.markRead user.id notificationId
    return .notification (cfg.response n)
  | markAllRead caller => do
    let user ← currentUser caller
    let count ← NotificationRepository.markAllRead user.id
    return .marked count ("Marked " ++ toString count ++ " notification(s) as read.")

/-- The user who makes the call. -/
def caller : InboxRequest → Uuid
  | org r => r.caller
  | listNotifications caller _ _ _ => caller
  | markRead caller _ => caller
  | markAllRead caller => caller

end InboxRequest

/-- The notifications in the response. -/
def InboxAnswer.items : InboxAnswer → List NotificationResponse
  | notifications items => items
  | notification item => [item]
  | org _ => []
  | marked _ _ => []

end TrafficPlatform
