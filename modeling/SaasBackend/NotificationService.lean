import SaasBackend.Backend
import SaasBackend.OrganizationListings

/-! src/modules/notification: the service, past authentication and validation. -/

set_option autoImplicit false

namespace SaasBackend
open Keyed Handler

/-- notificationSelect -/
structure NotificationView where
  id : Id
  type : NotificationType
  title : String
  message : String
  data : Json
  readAt : Option Time
  createdAt : Time

def notificationView (id : Id) (n : Notification) : NotificationView :=
  ⟨id, n.type, n.title, n.message, n.data, n.readAt, n.createdAt⟩

/-- preferenceSelect -/
structure PreferenceView where
  id : Id
  emailEnabled : Bool
  pushEnabled : Bool
  inAppEnabled : Bool
  mutedTypes : List NotificationType
  createdAt : Time
  updatedAt : Time
  deriving DecidableEq, Repr

def preferenceView (id : Id) (p : NotificationPreference) : PreferenceView :=
  ⟨id, p.emailEnabled, p.pushEnabled, p.inAppEnabled, p.mutedTypes, p.createdAt, p.updatedAt⟩

inductive NotificationSort where
  | createdAt | type | readAt
  deriving DecidableEq, Repr

def NotificationType.rank : NotificationType → Nat
  | .system => 0
  | .organization => 1
  | .billing => 2
  | .security => 3
  | .team => 4

/-- The column order of `orderBy`; rows without a readAt come last in it. -/
def NotificationSort.le (sort : NotificationSort) (a b : Id × Notification) : Bool :=
  match sort with
  | .createdAt => decide (a.2.createdAt ≤ b.2.createdAt)
  | .type => decide (a.2.type.rank ≤ b.2.type.rank)
  | .readAt =>
    match a.2.readAt, b.2.readAt with
    | _, none => true
    | none, some _ => false
    | some s, some t => decide (s ≤ t)

structure NotificationQuery extends ListParams NotificationSort where
  type : Option NotificationType := none
  unreadOnly : Bool := false

inductive NotificationReply where
  | created (notification : Option NotificationView)
  | notifications (notifications : List NotificationView) (unreadCount : Nat) (page : PageMeta)
  | preferences (preferences : PreferenceView)
  | message (messageKey : String) (count : Option Nat)

def notificationNotFound : Err := httpError "errors.notificationNotFound" 404

/-- `{ userId }` -/
def Backend.inbox (b : Backend) (userId : Id) : List (Id × Notification) :=
  b.notifications.filter (fun _ n => n.userId == userId)

def NotificationQuery.keeps (env : Env) (q : NotificationQuery) (n : Notification) : Bool :=
  q.type.all (fun type => n.type == type) && (!q.unreadOnly || n.readAt.isNone) &&
    matchesSearch env q.search [n.title, n.message]

/-- What the preferences keep out: everything, or the muted types. -/
def NotificationPreference.suppresses (p : NotificationPreference) (type : NotificationType) :
    Bool :=
  !p.inAppEnabled || p.mutedTypes.contains type

def createNotification (id userId : Id) (type : NotificationType) (title message : String)
    (data : Json) : Act NotificationReply := do
  let prefs ← Act.query (·.preferencesOf userId)
  if prefs.any (·.2.suppresses type) then return .created none
  else do
    let row : Notification := { userId, type, title, message, data }
    let created ← Prog.send (.notificationCreate id row) (·.world.now)
    return .created (some (notificationView id { row with createdAt := created }))

def listNotifications (env : Env) (userId : Id) (q : NotificationQuery) :
    Act NotificationReply := do
  let notifications ← Act.query (fun b => (paginate q.page q.limit (sortRows q.sort.le q.order
    ((b.inbox userId).filter (q.keeps env ·.2)))).map (fun r => notificationView r.1 r.2))
  let total ← Act.query (fun b => ((b.inbox userId).filter (q.keeps env ·.2)).length)
  let unreadCount ← Act.query (fun b => ((b.inbox userId).filter (·.2.readAt.isNone)).length)
  return .notifications notifications unreadCount (paginationMeta q.page q.limit total)

/-- `{ id: notificationId, userId }` -/
def Backend.ownNotification (b : Backend) (userId notificationId : Id) : Option Notification :=
  (b.notifications.get? notificationId).filter (·.userId == userId)

def markAsRead (userId notificationId : Id) : Act NotificationReply := do
  let found ← Act.query (·.ownNotification userId notificationId)
  match found with
  | none => throw notificationNotFound
  | some notification =>
    if notification.readAt.isSome then return .message "messages.notificationAlreadyRead" none
    else do
      let now ← Act.date
      Act.execute (.notificationUpdate notificationId now)
      return .message "messages.notificationMarkedAsRead" none

def markAllAsRead (userId : Id) : Act NotificationReply := do
  let now ← Act.date
  let count ← Prog.send (.notificationReadAll userId now)
    (fun b => ((b.inbox userId).filter (·.2.readAt.isNone)).length)
  return .message "messages.notificationsMarkedAsRead" (some count)

def deleteNotification (userId notificationId : Id) : Act NotificationReply := do
  let found ← Act.query (·.ownNotification userId notificationId)
  match found with
  | none => throw notificationNotFound
  | some _ => do
    Act.execute (.notificationDelete notificationId)
    return .message "messages.notificationDeleted" none

/-- `id` is the cuid drawn for the row, should there be none yet. -/
def getPreferences (id userId : Id) : Act NotificationReply := do
  let found ← Act.query (·.preferencesOf userId)
  match found with
  | some prefs => return .preferences (preferenceView prefs.1 prefs.2)
  | none => do
    let now ← Prog.send (.preferenceCreate id userId) (·.world.now)
    return .preferences (preferenceView id (defaultPreferences userId now))

def Backend.savedPreferences (b : Backend) (id userId : Id) (d : PreferencePatch) :
    PreferenceView :=
  match b.preferencesOf userId with
  | some (k, p) => preferenceView k { d.apply p with updatedAt := b.world.now }
  | none => preferenceView id (d.apply (defaultPreferences userId b.world.now))

def updatePreferences (id userId : Id) (updates : PreferencePatch) : Act NotificationReply := do
  let prefs ← Prog.send (.preferenceUpsert id userId updates)
    (·.savedPreferences id userId updates)
  return .preferences prefs

/-- `NOTIFICATION_RETENTION_DAYS` is the argument. -/
def cleanupNotifications (retentionDays : Nat) : Act Nat := do
  let now ← Act.date
  Prog.send (.notificationCleanup (daysAgo now retentionDays))
    (fun b => (b.notifications.filter (fun _ n =>
      decide (n.createdAt < daysAgo now retentionDays))).length)

end SaasBackend
