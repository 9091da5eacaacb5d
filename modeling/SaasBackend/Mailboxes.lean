import SaasBackend.NotificationService
import SaasBackend.MembershipOrigins
import SaasBackend.Unwinding

/-! Every user has a mailbox of their own: what a user is answered, in any run of
notification requests of any users, is what an abstract mailbox answers to the user's
own requests alone. -/

set_option autoImplicit false

namespace SaasBackend
open Keyed Handler Unwinding

inductive NotificationRoute where
  | list (q : NotificationQuery)
  | markAsRead (notificationId : Id)
  | markAllAsRead
  | delete (notificationId : Id)
  | getPreferences (id : Id)
  | updatePreferences (id : Id) (updates : PreferencePatch)

def NotificationRoute.serve (env : Env) (userId : Id) : NotificationRoute → Act NotificationReply
  | .list q => listNotifications env userId q
  | .markAsRead notificationId => SaasBackend.markAsRead userId notificationId
  | .markAllAsRead => SaasBackend.markAllAsRead userId
  | .delete notificationId => deleteNotification userId notificationId
  | .getPreferences id => SaasBackend.getPreferences id userId
  | .updatePreferences id updates => SaasBackend.updatePreferences id userId updates

def NotificationRoute.handle (env : Env) (header : AuthHeader) (route : NotificationRoute) :
    Act NotificationReply := do
  let caller ← (authenticate header).lift
  route.serve env caller.id

inductive InboxRequest where
  | create (id userId : Id) (type : NotificationType) (title message : String) (data : Json)
  | route (header : AuthHeader) (route : NotificationRoute)
  | cleanup (retentionDays : Nat)
  | wait (d : Time)

def InboxRequest.prog (env : Env) : InboxRequest → Act (Option NotificationReply)
  | .create id userId type title message data =>
    (createNotification id userId type title message data).bind fun r => .ret (some r)
  | .route header r => (r.handle env header).bind fun r => .ret (some r)
  | .cleanup retentionDays => (cleanupNotifications retentionDays).bind fun _ => .ret none
  | .wait d => (Act.execute (.core (.tick d))).bind fun _ => .ret none

abbrev InboxAnswer := Except Err (Option NotificationReply)

def InboxRequest.serve (env : Env) (b : Backend) (r : InboxRequest) : InboxAnswer × Backend :=
  (r.prog env).run BackendStmt.exec b

def InboxRequest.concerns (u : Id) : InboxRequest → Bool
  | .create _ userId _ _ _ _ => userId == u
  | .route header _ => header.bearerId == some u
  | .cleanup _ => true
  | .wait _ => true

def InboxRequest.cuid : InboxRequest → Option Id
  | .create id _ _ _ _ _ => some id
  | .route _ (.getPreferences id) => some id
  | .route _ (.updatePreferences id _) => some id
  | _ => none

/-- One user's notifications and preferences, and the world they are in. -/
structure Mailbox where
  owner : Id
  world : World
  letters : List (Id × Notification)
  preferences : Option (Id × NotificationPreference)

namespace Mailbox

def unread (m : Mailbox) : Nat := (m.letters.filter (·.2.readAt.isNone)).length

def answer (m : Mailbox) (a : NotificationReply) : InboxAnswer × Mailbox := (.ok (some a), m)

def create (m : Mailbox) (id : Id) (type : NotificationType) (title message : String)
    (data : Json) : InboxAnswer × Mailbox :=
  if m.preferences.any (·.2.suppresses type) then m.answer (.created none)
  else if !m.world.hasUser m.owner then (.error (.prisma .P2003), m)
  else
    let letter : Notification :=
      { userId := m.owner, type, title, message, data, createdAt := m.world.now }
    answer { m with letters := m.letters ++ [(id, letter)] }
      (.created (some (notificationView id letter)))

def list (env : Env) (m : Mailbox) (q : NotificationQuery) : InboxAnswer × Mailbox :=
  let kept := m.letters.filter (q.keeps env ·.2)
  m.answer (.notifications
    ((paginate q.page q.limit (sortRows q.sort.le q.order kept)).map
      (fun r => notificationView r.1 r.2))
    m.unread (paginationMeta q.page q.limit kept.length))

def stamp (m : Mailbox) (p : Id → Notification → Bool) : Mailbox :=
  { m with letters := m.letters.map (fun r =>
      (r.1, if p r.1 r.2 then { r.2 with readAt := some m.world.now } else r.2)) }

def markAsRead (m : Mailbox) (id : Id) : InboxAnswer × Mailbox :=
  match m.letters.lookup id with
  | none => (.error notificationNotFound, m)
  | some letter =>
    if letter.readAt.isSome then m.answer (.message "messages.notificationAlreadyRead" none)
    else (m.stamp (fun k _ => k == id)).answer
      (.message "messages.notificationMarkedAsRead" none)

def markAllAsRead (m : Mailbox) : InboxAnswer × Mailbox :=
  (m.stamp (fun _ n => n.readAt.isNone)).answer
    (.message "messages.notificationsMarkedAsRead" (some m.unread))

def delete (m : Mailbox) (id : Id) : InboxAnswer × Mailbox :=
  match m.letters.lookup id with
  | none => (.error notificationNotFound, m)
  | some _ =>
    answer { m with letters := m.letters.filter (fun r => r.1 != id) }
      (.message "messages.notificationDeleted" none)

def fresh (m : Mailbox) (id : Id) : Id × NotificationPreference :=
  (id, defaultPreferences m.owner m.world.now)

def keep (m : Mailbox) (prefs : Id × NotificationPreference) : InboxAnswer × Mailbox :=
  if !m.world.hasUser m.owner then (.error (.prisma .P2003), m)
  else
    answer { m with preferences := some prefs } (.preferences (preferenceView prefs.1 prefs.2))

def getPreferences (m : Mailbox) (id : Id) : InboxAnswer × Mailbox :=
  match m.preferences with
  | some prefs => m.answer (.preferences (preferenceView prefs.1 prefs.2))
  | none => m.keep (m.fresh id)

def updatePreferences (m : Mailbox) (id : Id) (d : PreferencePatch) : InboxAnswer × Mailbox :=
  match m.preferences with
  | some (k, p) =>
    let saved := { d.apply p with updatedAt := m.world.now }
    answer { m with preferences := some (k, saved) } (.preferences (preferenceView k saved))
  | none => m.keep ((m.fresh id).1, d.apply (m.fresh id).2)

def route (env : Env) (m : Mailbox) : NotificationRoute → InboxAnswer × Mailbox
  | .list q => m.list env q
  | .markAsRead id => m.markAsRead id
  | .markAllAsRead => m.markAllAsRead
  | .delete id => m.delete id
  | .getPreferences id => m.getPreferences id
  | .updatePreferences id updates => m.updatePreferences id updates

def serve (env : Env) (m : Mailbox) : InboxRequest → InboxAnswer × Mailbox
  | .create id _ type title message data => m.create id type title message data
  | .route header route =>
    match ((authenticate header).runs m.world).1 with
    | .ok _ => m.route env route
    | .error e => (.error e, m)
  | .cleanup retentionDays =>
    let kept := m.letters.filter
      (fun r => !decide (r.2.createdAt < daysAgo m.world.now retentionDays))
    (.ok none, { m with letters := kept })
  | .wait d => (.ok none, { m with world := { m.world with now := m.world.now + d } })

end Mailbox

def Backend.mailbox (b : Backend) (u : Id) : Mailbox :=
  ⟨u, b.world, b.inbox u, b.preferencesOf u⟩

@[simp] theorem mailbox_owner (b : Backend) (u : Id) : (b.mailbox u).owner = u := rfl

@[simp] theorem mailbox_world (b : Backend) (u : Id) : (b.mailbox u).world = b.world := rfl

@[simp] theorem mailbox_letters (b : Backend) (u : Id) : (b.mailbox u).letters = b.inbox u := rfl

@[simp] theorem mailbox_preferences (b : Backend) (u : Id) :
    (b.mailbox u).preferences = b.preferencesOf u := rfl

structure Backend.Unused (b : Backend) (id : Id) : Prop where
  notifications : b.notifications.get? id = none
  preferences : b.notificationPreferences.get? id = none

structure CuidsDrawn (rs : List InboxRequest) (b : Backend) : Prop where
  distinct : (rs.filterMap InboxRequest.cuid).Nodup
  unused : ∀ id ∈ rs.filterMap InboxRequest.cuid, b.Unused id

def Mirrors (u : Id) (p : Act NotificationReply) (x : InboxAnswer × Mailbox) (b : Backend) :
    Prop :=
  x = ((p.run BackendStmt.exec b).1.map some, (p.run BackendStmt.exec b).2.mailbox u)

section Rules

variable {α : Type} {b : Backend} {u : Id} {x : InboxAnswer × Mailbox}

theorem mirrors_ret {a : NotificationReply} :
    Mirrors u (.ret a) x b ↔ x = (b.mailbox u).answer a := Iff.rfl

theorem mirrors_query_bind {view : Backend → α} {k : α → Act NotificationReply} :
    Mirrors u ((Act.query view).bind k) x b ↔ Mirrors u (k (view b)) x b := Iff.rfl

theorem mirrors_date_bind {k : Time → Act NotificationReply} :
    Mirrors u (Act.date.bind k) x b ↔ Mirrors u (k b.world.now) x b := Iff.rfl

theorem mirrors_send_ok {l : BackendStmt} {view : Backend → α} {k : α → Act NotificationReply}
    {b' : Backend} (hl : l.exec b = .ok b') :
    Mirrors u ((Prog.send l view).bind k) x b ↔ Mirrors u (k (view b)) x b' := by
  unfold Mirrors
  rw [Prog.send_bind, Prog.run_stmt, hl]

theorem mirrors_send_error {l : BackendStmt} {view : Backend → α}
    {k : α → Act NotificationReply} {e : Err} (hl : l.exec b = .error e) :
    Mirrors u ((Prog.send l view).bind k) x b ↔ x = (.error e, b.mailbox u) := by
  unfold Mirrors
  rw [Prog.send_bind, Prog.run_stmt, hl]
  rfl

end Rules

section Mirrored

variable {b : Backend} {u id : Id}

theorem mailbox_stamped (p : Id → Notification → Bool) (b : Backend) :
    { b with
      notifications := b.notifications.updateWhere p
        (fun n => { n with readAt := some b.world.now }) }.mailbox u = (b.mailbox u).stamp p := by
  have hinbox := Table.filter_updateWhere (t := b.notifications) (p := p)
    (q := fun _ n => n.userId == u) (f := fun n => { n with readAt := some b.world.now })
    (fun _ _ => rfl)
  exact congrArg (Mailbox.mk u b.world · (b.preferencesOf u)) hinbox

theorem Mailbox.stamp_congr {m : Mailbox} {p q : Id → Notification → Bool}
    (h : ∀ r ∈ m.letters, p r.1 r.2 = q r.1 r.2) : m.stamp p = m.stamp q := by
  have hletters : m.letters.map (fun r =>
      (r.1, if p r.1 r.2 then { r.2 with readAt := some m.world.now } else r.2)) =
      m.letters.map (fun r =>
        (r.1, if q r.1 r.2 then { r.2 with readAt := some m.world.now } else r.2)) :=
    List.map_congr_left fun r hr => by rw [h r hr]
  simp only [stamp, hletters]

theorem create_mirrors (hid : b.notifications.get? id = none) (type : NotificationType)
    (title message : String) (data : Json) :
    Mirrors u (createNotification id u type title message data)
      ((b.mailbox u).create id type title message data) b := by
  simp only [createNotification, Mailbox.create, Prog.bind_eq, mirrors_query_bind,
    mailbox_preferences, mailbox_owner, mailbox_world]
  by_cases hsup : (b.preferencesOf u).any (·.2.suppresses type) = true
  · simp only [hsup, if_true]
    rfl
  · simp only [hsup, if_false, Bool.false_eq_true]
    by_cases hu : b.world.hasUser u = true
    · rw [mirrors_send_ok (by simp [BackendStmt.exec, insertNamed, hid, hu]; rfl), Prog.pure_eq,
        mirrors_ret]
      simp [hu, Backend.mailbox, Backend.inbox, Table.filter_insert _ hid, Backend.preferencesOf]
    · rw [mirrors_send_error (by simp [BackendStmt.exec, insertNamed, hid, hu]; rfl)]
      simp [hu]

theorem list_mirrors (env : Env) (q : NotificationQuery) :
    Mirrors u (listNotifications env u q) ((b.mailbox u).list env q) b := rfl

theorem own_lookup : b.ownNotification u id = (b.inbox u).lookup id :=
  (Table.lookup_filter (t := b.notifications) (q := fun _ n => n.userId == u)).symm

theorem own_some {n : Notification} (h : b.ownNotification u id = some n) :
    b.notifications.get? id = some n ∧ n.userId = u := by
  obtain ⟨hget, howner⟩ := Option.filter_eq_some_iff.mp h
  exact ⟨hget, by simpa using howner⟩

theorem markAsRead_mirrors : Mirrors u (markAsRead u id) ((b.mailbox u).markAsRead id) b := by
  simp only [markAsRead, Mailbox.markAsRead, Prog.bind_eq, mirrors_query_bind, mailbox_letters,
    ← own_lookup]
  cases hown : b.ownNotification u id with
  | none => rfl
  | some n =>
    by_cases hread : n.readAt.isSome = true
    · simp only [hread, if_true]
      rfl
    · have hget := (own_some hown).1
      simp only [hread, if_false, Bool.false_eq_true, mirrors_date_bind, Act.execute]
      rw [mirrors_send_ok (by simp [BackendStmt.exec, hget]; rfl), Prog.pure_eq, mirrors_ret]
      simp [Table.update, mailbox_stamped]

theorem markAllAsRead_mirrors : Mirrors u (markAllAsRead u) (b.mailbox u).markAllAsRead b := by
  simp only [markAllAsRead, Mailbox.markAllAsRead, Prog.bind_eq, mirrors_date_bind]
  rw [mirrors_send_ok rfl, Prog.pure_eq, mirrors_ret, mailbox_stamped]
  have hstamp : (b.mailbox u).stamp (fun _ n => n.readAt.isNone) =
      (b.mailbox u).stamp (fun _ n => n.userId == u && n.readAt.isNone) := by
    refine Mailbox.stamp_congr fun r hr => ?_
    have howner : (r.2.userId == u) = true := (List.mem_filter.mp hr).2
    simp [howner]
  rw [hstamp]
  rfl

theorem delete_mirrors : Mirrors u (deleteNotification u id) ((b.mailbox u).delete id) b := by
  simp only [deleteNotification, Mailbox.delete, Prog.bind_eq, mirrors_query_bind,
    mailbox_letters, ← own_lookup]
  cases hown : b.ownNotification u id with
  | none => rfl
  | some n =>
    have hget := (own_some hown).1
    simp only [Act.execute]
    rw [mirrors_send_ok (by simp [BackendStmt.exec, hget]; rfl), Prog.pure_eq, mirrors_ret]
    simp only [Backend.mailbox, Backend.inbox, Table.erase, Table.filter_eraseWhere]
    rfl

theorem preferencesOf_insert {p : NotificationPreference}
    (hid : b.notificationPreferences.get? id = none) (hnone : b.preferencesOf u = none)
    (howner : p.userId = u) :
    (b.notificationPreferences.insert id p).find? (fun _ p => p.userId == u) = some (id, p) := by
  have hfind : b.notificationPreferences.find? (fun _ p => p.userId == u) = none := hnone
  simp [Table.find?_insert _ hid, hfind, howner]

theorem preferenceCreate_effect {b' : Backend}
    (h : (BackendStmt.preferenceCreate id u).exec b = .ok b') :
    (b.mailbox u).getPreferences id =
      (b'.mailbox u).answer
        (.preferences (preferenceView id (defaultPreferences u b.world.now))) := by
  obtain ⟨hid, hpref, hu, rfl⟩ :=
    insertNamed_ok (f := fun t => { b with notificationPreferences := t }) h
  have hnone : b.preferencesOf u = none := by simpa using hpref
  have hfind := preferencesOf_insert (p := defaultPreferences u b.world.now) hid hnone rfl
  simp only [Mailbox.getPreferences, mailbox_preferences, hnone, Mailbox.keep, Mailbox.fresh,
    mailbox_owner, mailbox_world, hu]
  simp only [Backend.mailbox, Backend.inbox, Backend.preferencesOf, hfind]
  rfl

theorem preferenceUpsert_effect {b' : Backend} {d : PreferencePatch}
    (h : (BackendStmt.preferenceUpsert id u d).exec b = .ok b') :
    (b.mailbox u).updatePreferences id d =
      (b'.mailbox u).answer (.preferences (b.savedPreferences id u d)) := by
  simp only [BackendStmt.exec] at h
  simp only [Mailbox.updatePreferences, mailbox_preferences, Backend.savedPreferences]
  cases hpref : b.preferencesOf u with
  | some prefs =>
    obtain ⟨k, p⟩ := prefs
    simp only [hpref] at h
    cases h
    have hfind : (b.notificationPreferences.update k (fun p =>
        { d.apply p with updatedAt := b.world.now })).find? (fun _ p => p.userId == u) =
        some (k, { d.apply p with updatedAt := b.world.now }) := by
      have hold : b.notificationPreferences.find? (fun _ p => p.userId == u) = some (k, p) := hpref
      simp [Table.update, Table.find?_updateWhere (q := fun _ p => p.userId == u)
        (f := fun p => { d.apply p with updatedAt := b.world.now }) (fun _ _ => rfl), hold]
    simp only [Backend.mailbox, Backend.inbox, Backend.preferencesOf, hfind]
  | none =>
    simp only [hpref] at h
    obtain ⟨hid, _, hu, rfl⟩ :=
      insertNamed_ok (f := fun t => { b with notificationPreferences := t }) h
    have hfind := preferencesOf_insert (p := d.apply (defaultPreferences u b.world.now))
      hid hpref rfl
    simp only [Mailbox.keep, Mailbox.fresh, mailbox_owner, mailbox_world, hu]
    simp only [Backend.mailbox, Backend.inbox, Backend.preferencesOf, hfind]
    rfl

theorem getPreferences_mirrors (hid : b.notificationPreferences.get? id = none) :
    Mirrors u (getPreferences id u) ((b.mailbox u).getPreferences id) b := by
  simp only [getPreferences, Prog.bind_eq, mirrors_query_bind]
  cases hpref : b.preferencesOf u with
  | some prefs => simp only [Mailbox.getPreferences, mailbox_preferences, hpref]; rfl
  | none =>
    dsimp only
    cases he : (BackendStmt.preferenceCreate id u).exec b with
    | ok b' =>
      rw [mirrors_send_ok he, Prog.pure_eq, mirrors_ret]
      exact preferenceCreate_effect he
    | error e =>
      rw [mirrors_send_error he]
      by_cases hu : b.world.hasUser u = true
      · simp [BackendStmt.exec, insertNamed, hid, hpref, hu] at he
      · simp only [BackendStmt.exec, insertNamed, hid, hpref, hu] at he
        simp_all [Mailbox.getPreferences, Mailbox.keep]

theorem updatePreferences_mirrors (hid : b.notificationPreferences.get? id = none)
    (d : PreferencePatch) :
    Mirrors u (updatePreferences id u d) ((b.mailbox u).updatePreferences id d) b := by
  simp only [updatePreferences, Prog.bind_eq]
  cases he : (BackendStmt.preferenceUpsert id u d).exec b with
  | ok b' =>
    rw [mirrors_send_ok he, Prog.pure_eq, mirrors_ret]
    exact preferenceUpsert_effect he
  | error e =>
    rw [mirrors_send_error he]
    cases hpref : b.preferencesOf u with
    | some prefs => simp [BackendStmt.exec, hpref] at he
    | none =>
      by_cases hu : b.world.hasUser u = true
      · simp [BackendStmt.exec, insertNamed, hid, hpref, hu] at he
      · simp only [BackendStmt.exec, insertNamed, hid, hpref, hu] at he
        simp_all [Mailbox.updatePreferences, Mailbox.keep]

end Mirrored

def BackendStmt.ofUser (v : Id) (b : Backend) : BackendStmt → Prop
  | .notificationCreate _ n => n.userId = v
  | .notificationUpdate id _ => ∃ n, b.ownNotification v id = some n
  | .notificationReadAll userId _ => userId = v
  | .notificationDelete id => ∃ n, b.ownNotification v id = some n
  | .preferenceCreate _ userId => userId = v
  | .preferenceUpsert _ userId _ => userId = v
  | _ => False

section Apart

variable {b b' : Backend} {u v : Id}

theorem own_apart (hne : v ≠ u) {id k : Id} {n n' : Notification}
    (hown : b.ownNotification v id = some n) (hk : b.notifications.get? k = some n')
    (hu : (n'.userId == u) = true) : (k == id) = false := by
  obtain ⟨hget, howner⟩ := own_some hown
  refine beq_eq_false_iff_ne.mpr fun heq => ?_
  subst heq
  rw [hget] at hk
  cases hk
  exact hne (howner.symm.trans (by simpa using hu))

theorem mailbox_eq (hworld : b'.world = b.world) (hinbox : b'.inbox u = b.inbox u)
    (hprefs : b'.preferencesOf u = b.preferencesOf u) : b'.mailbox u = b.mailbox u := by
  simp only [Backend.mailbox, hworld, hinbox, hprefs]

theorem readAt_apart {p : Id → Notification → Bool} (t : Time)
    (hapart : ∀ k n, b.notifications.get? k = some n → (n.userId == u) = true →
      p k n = false) :
    (b.notifications.updateWhere p (fun n => { n with readAt := some t })).filter
      (fun _ n => n.userId == u) = b.inbox u :=
  Table.filter_updateWhere_apart (f := fun n => { n with readAt := some t })
    (fun _ _ => rfl) hapart

theorem notificationCreate_ok {id : Id} {n : Notification}
    (h : (BackendStmt.notificationCreate id n).exec b = .ok b') :
    b.notifications.get? id = none ∧ b' = { b with
      notifications := b.notifications.insert id { n with createdAt := b.world.now } } := by
  obtain ⟨hid, _, _, heq⟩ := insertNamed_ok (f := fun t => { b with notifications := t }) h
  exact ⟨hid, heq⟩

theorem preference_apart {id : Id} {p : NotificationPreference}
    (hid : b.notificationPreferences.get? id = none) (howner : (p.userId == u) = false) :
    (b.notificationPreferences.insert id p).find? (fun _ p => p.userId == u) =
      b.preferencesOf u := by
  simp [Table.find?_insert _ hid, howner, Backend.preferencesOf]

theorem upsert_apart (hne : v ≠ u) {k : Id} {p : NotificationPreference}
    (hpref : b.preferencesOf v = some (k, p)) (d : PreferencePatch) (now : Time) :
    (b.notificationPreferences.update k (fun p => { d.apply p with updatedAt := now })).find?
      (fun _ p => p.userId == u) = b.preferencesOf u := by
  obtain ⟨hk, hp⟩ := Table.find?_some hpref
  rw [Table.update, Table.find?_updateWhere (q := fun _ p => p.userId == u)
    (f := fun p => { d.apply p with updatedAt := now }) (fun _ _ => rfl)]
  cases hu : b.notificationPreferences.find? (fun _ p => p.userId == u) with
  | none => exact hu.symm
  | some r =>
    obtain ⟨hr, hru⟩ := Table.find?_some (k := r.1) (a := r.2) hu
    have hkey : r.1 ≠ k := by
      intro heq
      rw [heq, hk] at hr
      cases hr
      exact hne (by simp_all)
    simp only [Option.map_some, beq_iff_eq, hkey, if_false]
    exact hu.symm

theorem exec_apart (hne : v ≠ u) {l : BackendStmt} (hl : l.ofUser v b)
    (h : l.exec b = .ok b') : b'.mailbox u = b.mailbox u := by
  have hbeq : (v == u) = false := beq_eq_false_iff_ne.mpr hne
  cases l with
  | notificationCreate id n =>
    obtain ⟨hid, rfl⟩ := notificationCreate_ok h
    have howner : n.userId = v := hl
    refine mailbox_eq rfl ?_ rfl
    simp [Backend.inbox, Table.filter_insert _ hid, howner, hne]
  | notificationUpdate id readAt =>
    obtain ⟨n, hown⟩ := hl
    simp only [BackendStmt.exec, (own_some hown).1] at h
    cases h
    exact mailbox_eq rfl (readAt_apart readAt fun k n' hk hu => own_apart hne hown hk hu) rfl
  | notificationReadAll userId readAt =>
    have huser : userId = v := hl
    cases h
    refine mailbox_eq rfl (readAt_apart readAt fun k n' hk hu => ?_) rfl
    have howner : n'.userId = u := by simpa using hu
    simp [howner, huser, hne.symm]
  | notificationDelete id =>
    obtain ⟨n, hown⟩ := hl
    simp only [BackendStmt.exec, (own_some hown).1] at h
    cases h
    exact mailbox_eq rfl (Table.filter_eraseWhere_apart
      fun k n' hk hu => own_apart hne hown hk hu) rfl
  | preferenceCreate id userId =>
    have huser : userId = v := hl
    obtain ⟨hid, _, _, rfl⟩ :=
      insertNamed_ok (f := fun t => { b with notificationPreferences := t }) h
    exact mailbox_eq rfl rfl (preference_apart hid (by simp [defaultPreferences, huser, hne]))
  | preferenceUpsert id userId d =>
    have huser : userId = v := hl
    subst huser
    simp only [BackendStmt.exec] at h
    split at h
    · rename_i k p hpref
      cases h
      exact mailbox_eq rfl rfl (upsert_apart hne hpref d b.world.now)
    · obtain ⟨hid, _, _, rfl⟩ :=
        insertNamed_ok (f := fun t => { b with notificationPreferences := t }) h
      exact mailbox_eq rfl rfl (preference_apart hid
        (by simp [PreferencePatch.apply, defaultPreferences, hne]))
  | core l => cases hl
  | notificationCleanup before => cases hl
  | auditCreate id row => cases hl
  | auditCleanup before => cases hl
  | failedJobCreate id row => cases hl
  | failedJobCleanup before => cases hl
  | webhookEventCleanup before => cases hl

def LeavesMailbox {α : Type} (u : Id) (p : Act α) (b : Backend) : Prop :=
  p.Ends BackendStmt.exec (fun _ b' => b'.mailbox u = b.mailbox u) b

theorem leaves_query_bind {α β : Type} {view : Backend → α} {k : α → Act β} :
    LeavesMailbox u ((Act.query view).bind k) b ↔ LeavesMailbox u (k (view b)) b := Iff.rfl

theorem leaves_date_bind {α : Type} {k : Time → Act α} :
    LeavesMailbox u (Act.date.bind k) b ↔ LeavesMailbox u (k b.world.now) b := Iff.rfl

theorem leaves_write {α β : Type} (hne : v ≠ u) {l : BackendStmt} (hl : l.ofUser v b)
    {view : Backend → α} {f : α → β} :
    LeavesMailbox u ((Prog.send l view).bind (fun a => .ret (f a))) b := by
  unfold LeavesMailbox Prog.Ends
  rw [Prog.send_bind, Prog.run_stmt]
  cases he : l.exec b with
  | ok b' => exact exec_apart hne hl he
  | error e => rfl

theorem createNotification_leaves (hne : v ≠ u) (id : Id) (type : NotificationType)
    (title message : String) (data : Json) :
    LeavesMailbox u (createNotification id v type title message data) b := by
  simp only [createNotification, Prog.bind_eq, Prog.pure_eq, leaves_query_bind]
  split
  · rfl
  · exact leaves_write hne (by exact rfl)

theorem markAsRead_leaves (hne : v ≠ u) (id : Id) : LeavesMailbox u (markAsRead v id) b := by
  simp only [markAsRead, Prog.bind_eq, Prog.pure_eq, leaves_query_bind]
  cases hown : b.ownNotification v id with
  | none => rfl
  | some n =>
    dsimp only
    split
    · rfl
    · rw [leaves_date_bind]
      exact leaves_write hne (by exact ⟨n, hown⟩)

theorem deleteNotification_leaves (hne : v ≠ u) (id : Id) :
    LeavesMailbox u (deleteNotification v id) b := by
  simp only [deleteNotification, Prog.bind_eq, Prog.pure_eq, leaves_query_bind]
  cases hown : b.ownNotification v id with
  | none => rfl
  | some n => exact leaves_write hne (by exact ⟨n, hown⟩)

theorem getPreferences_leaves (hne : v ≠ u) (id : Id) :
    LeavesMailbox u (getPreferences id v) b := by
  simp only [getPreferences, Prog.bind_eq, Prog.pure_eq, leaves_query_bind]
  cases b.preferencesOf v with
  | some prefs => rfl
  | none => exact leaves_write hne (by exact rfl)

theorem route_leaves (hne : v ≠ u) (env : Env) (route : NotificationRoute) :
    LeavesMailbox u (route.serve env v) b := by
  cases route with
  | list q => rfl
  | markAsRead id => exact markAsRead_leaves hne id
  | markAllAsRead => exact leaves_write (b := b) hne (by exact rfl)
  | delete id => exact deleteNotification_leaves hne id
  | getPreferences id => exact getPreferences_leaves hne id
  | updatePreferences id d => exact leaves_write (b := b) hne (by exact rfl)

end Apart

section Cuids

def BackendStmt.draws : BackendStmt → Option Id
  | .notificationCreate id _ => some id
  | .preferenceCreate id _ => some id
  | .preferenceUpsert id _ _ => some id
  | _ => none

variable {b b' : Backend} {id : Id}

theorem get?_insert_apart {α : Type} {t : Table α} {k : Id} {a : α} (hk : t.get? k = none)
    (hne : k ≠ id) (h : t.get? id = none) : (t.insert k a).get? id = none := by
  rw [Table.get?_insert a hk, if_neg hne.symm, h]

theorem Backend.Unused.cascade (h : b.Unused id) (l : Stmt) : (b.cascade l).Unused id := by
  unfold Backend.cascade
  split
  · exact ⟨by simp [Backend.forget, h.notifications], by simp [Backend.forget, h.preferences]⟩
  · exact h

theorem Backend.Unused.exec (h : b.Unused id) {l : BackendStmt} (hdraws : l.draws ≠ some id)
    (hl : l.exec b = .ok b') : b'.Unused id := by
  obtain ⟨hn, hp⟩ := h
  cases l with
  | core l =>
    simp only [BackendStmt.exec] at hl
    split at hl
    · cases hl
    · cases hl
      refine Backend.Unused.cascade ?_ l
      exact ⟨hn, hp⟩
  | notificationCreate k n =>
    obtain ⟨hk, rfl⟩ := notificationCreate_ok hl
    exact ⟨get?_insert_apart hk (by simpa [BackendStmt.draws] using hdraws) hn, hp⟩
  | notificationUpdate k readAt =>
    simp only [BackendStmt.exec] at hl
    split at hl
    · cases hl
    · cases hl
      exact ⟨by simp [hn], hp⟩
  | notificationDelete k =>
    simp only [BackendStmt.exec] at hl
    split at hl
    · cases hl
    · cases hl
      exact ⟨by simp [hn], hp⟩
  | notificationReadAll userId readAt => cases hl; exact ⟨by simp [hn], hp⟩
  | notificationCleanup before => cases hl; exact ⟨by simp [hn], hp⟩
  | preferenceCreate k userId =>
    obtain ⟨hk, _, _, rfl⟩ :=
      insertNamed_ok (f := fun t => { b with notificationPreferences := t }) hl
    exact ⟨hn, get?_insert_apart hk (by simpa [BackendStmt.draws] using hdraws) hp⟩
  | preferenceUpsert k userId d =>
    simp only [BackendStmt.exec] at hl
    split at hl
    · cases hl
      exact ⟨hn, by simp [hp]⟩
    · obtain ⟨hk, _, _, rfl⟩ :=
        insertNamed_ok (f := fun t => { b with notificationPreferences := t }) hl
      exact ⟨hn, get?_insert_apart hk (by simpa [BackendStmt.draws] using hdraws) hp⟩
  | auditCreate k row =>
    obtain ⟨_, _, _, rfl⟩ := insertNamed_ok (f := fun t => { b with auditLogs := t }) hl
    exact ⟨hn, hp⟩
  | failedJobCreate k row =>
    obtain ⟨_, _, _, rfl⟩ := insertNamed_ok (f := fun t => { b with failedJobs := t }) hl
    exact ⟨hn, hp⟩
  | auditCleanup before => cases hl; exact ⟨hn, hp⟩
  | failedJobCleanup before => cases hl; exact ⟨hn, hp⟩
  | webhookEventCleanup before => cases hl; exact ⟨hn, hp⟩

def DrawsOnly (own : Option Id) (l : BackendStmt) : Prop := l.draws = none ∨ l.draws = own

theorem route_draws (env : Env) (userId : Id) (header : AuthHeader) (route : NotificationRoute) :
    (route.serve env userId).Sends (DrawsOnly (InboxRequest.route header route).cuid) := by
  cases route with
  | list q =>
    exact .bind (.send (.inl rfl)) fun _ => .bind (.send (.inl rfl)) fun _ =>
      .bind (.send (.inl rfl)) fun _ => .ret
  | markAsRead id =>
    refine .bind (.send (.inl rfl)) fun found => ?_
    split
    · exact .throw
    · split
      · exact .ret
      · exact .bind (.send (.inl rfl)) fun _ => .bind (.send (.inl rfl)) fun _ => .ret
  | markAllAsRead => exact .bind (.send (.inl rfl)) fun _ => .bind (.send (.inl rfl)) fun _ => .ret
  | delete id =>
    refine .bind (.send (.inl rfl)) fun found => ?_
    split
    · exact .throw
    · exact .bind (.send (.inl rfl)) fun _ => .ret
  | getPreferences id =>
    refine .bind (.send (.inl rfl)) fun found => ?_
    split
    · exact .ret
    · exact .bind (.send (.inr rfl)) fun _ => .ret
  | updatePreferences id d => exact .bind (.send (.inr rfl)) fun _ => .ret

theorem InboxRequest.draws (env : Env) (r : InboxRequest) :
    (r.prog env).Sends (DrawsOnly r.cuid) := by
  cases r with
  | create id userId type title message data =>
    refine .bind (.bind (.send (.inl rfl)) fun prefs => ?_) fun _ => .ret
    split
    · exact .ret
    · exact .bind (.send (.inr rfl)) fun _ => .ret
  | route header route =>
    exact .bind (.bind ((authenticate_reads header).embed fun l hl => by subst hl; exact .inl rfl)
      fun caller => route_draws env caller.id header route) fun _ => .ret
  | cleanup days => exact .bind (.bind (.send (.inl rfl)) fun _ => .send (.inl rfl)) fun _ => .ret
  | wait d => exact .bind (.send (.inl rfl)) fun _ => .ret

theorem CuidsDrawn.serve {r : InboxRequest} {rest : List InboxRequest}
    (h : CuidsDrawn (r :: rest) b) (env : Env) : CuidsDrawn rest (r.serve env b).2 := by
  have hsub : ∀ id ∈ rest.filterMap InboxRequest.cuid,
      id ∈ (r :: rest).filterMap InboxRequest.cuid := by
    intro id hid
    rw [List.filterMap_cons]
    split
    · exact hid
    · exact List.mem_cons_of_mem _ hid
  have hother : ∀ id ∈ rest.filterMap InboxRequest.cuid, r.cuid ≠ some id := by
    intro id hid heq
    have hdistinct := h.distinct
    simp only [List.filterMap_cons, heq, List.nodup_cons] at hdistinct
    exact hdistinct.1 hid
  refine ⟨h.distinct.sublist ?_, fun id hid => ?_⟩
  · rw [List.filterMap_cons]
    split
    · exact .refl _
    · exact List.sublist_cons_self _ _
  · refine (r.draws env).run (R := fun b b' : Backend => b.Unused id → b'.Unused id)
      (fun _ hb => hb) (fun _ _ _ h₁ h₂ hb => h₂ (h₁ hb)) (fun l b b' hl he hb => ?_) b
      (h.unused id (hsub id hid))
    refine hb.exec (fun hdraws => ?_) he
    rcases hl with hnone | hown
    · rw [hnone] at hdraws
      cases hdraws
    · exact hother id hid (hown.symm.trans hdraws)

end Cuids

section Served

variable {b : Backend} {u : Id}

theorem run_map {α β : Type} (p : Act α) (f : α → β) (b : Backend) :
    (p.bind (fun a => .ret (f a))).run BackendStmt.exec b =
      ((p.run BackendStmt.exec b).1.map f, (p.run BackendStmt.exec b).2) := by
  rw [Prog.run_bind]
  cases p.run BackendStmt.exec b with
  | mk r b' => cases r <;> rfl

theorem Mirrors.serve {p : Act NotificationReply} {x : InboxAnswer × Mailbox}
    (h : Mirrors u p x b) :
    ((p.bind (fun r => .ret (some r))).run BackendStmt.exec b).1 = x.1 ∧
      ((p.bind (fun r => .ret (some r))).run BackendStmt.exec b).2.mailbox u = x.2 := by
  rw [run_map, h]
  exact ⟨rfl, rfl⟩

theorem route_mirrors {header : AuthHeader} {route : NotificationRoute}
    (hunused : ∀ id, (InboxRequest.route header route).cuid = some id → b.Unused id)
    (env : Env) : Mirrors u (route.serve env u) ((b.mailbox u).route env route) b := by
  cases route with
  | list q => exact list_mirrors env q
  | markAsRead id => exact markAsRead_mirrors
  | markAllAsRead => exact markAllAsRead_mirrors
  | delete id => exact delete_mirrors
  | getPreferences id => exact getPreferences_mirrors (hunused id rfl).preferences
  | updatePreferences id d => exact updatePreferences_mirrors (hunused id rfl).preferences d

theorem InboxRequest.serve_seen (env : Env) {r : InboxRequest} (hr : r.concerns u = true)
    (hunused : ∀ id, r.cuid = some id → b.Unused id) :
    (r.serve env b).1 = ((b.mailbox u).serve env r).1 ∧
      (r.serve env b).2.mailbox u = ((b.mailbox u).serve env r).2 := by
  cases r with
  | create id userId type title message data =>
    have huser : userId = u := by simpa [InboxRequest.concerns] using hr
    subst huser
    exact (create_mirrors (hunused id rfl).notifications type title message data).serve
  | route header route =>
    have hu : header.bearerId = some u := by simpa [InboxRequest.concerns] using hr
    simp only [InboxRequest.serve, InboxRequest.prog, NotificationRoute.handle, Prog.bind_eq,
      Prog.bind_assoc, run_authenticated, Mailbox.serve, mailbox_world]
    cases hauth : ((authenticate header).runs b.world).1 with
    | error e => exact ⟨rfl, rfl⟩
    | ok caller =>
      have hcaller : caller.id = u :=
        Option.some.inj (((authenticate_returns header).run hauth).symm.trans hu)
      subst hcaller
      exact (route_mirrors hunused env).serve
  | cleanup days =>
    have hinbox := Table.filter_eraseWhere (t := b.notifications) (q := fun _ n => n.userId == u)
      (p := fun _ n => decide (n.createdAt < daysAgo b.world.now days))
    exact ⟨rfl, congrArg (Mailbox.mk u b.world · (b.preferencesOf u)) hinbox⟩
  | wait d => exact ⟨rfl, rfl⟩

theorem LeavesMailbox.serve {p : Act NotificationReply} (h : LeavesMailbox u p b) :
    ((p.bind (fun r => .ret (some r))).run BackendStmt.exec b).2.mailbox u = b.mailbox u := by
  rw [run_map]
  exact h

theorem InboxRequest.serve_hidden (env : Env) {r : InboxRequest} (hr : r.concerns u = false) :
    (r.serve env b).2.mailbox u = b.mailbox u := by
  cases r with
  | create id userId type title message data =>
    have hne : userId ≠ u := by simpa [InboxRequest.concerns] using hr
    exact (createNotification_leaves hne id type title message data).serve
  | route header route =>
    have hu : header.bearerId ≠ some u := by simpa [InboxRequest.concerns] using hr
    simp only [InboxRequest.serve, InboxRequest.prog, NotificationRoute.handle, Prog.bind_eq,
      Prog.bind_assoc, run_authenticated]
    cases hauth : ((authenticate header).runs b.world).1 with
    | error e => rfl
    | ok caller =>
      have hne : caller.id ≠ u := by
        intro heq
        subst heq
        exact hu ((authenticate_returns header).run hauth)
      exact (route_leaves hne env route).serve
  | cleanup days => cases hr
  | wait d => cases hr

end Served

theorem inbox_unwinds (env : Env) (u : Id) :
    Unwinds (fun b r => InboxRequest.serve env b r) (Mailbox.serve env)
      (fun r => r.concerns u) (fun rs b m => CuidsDrawn rs b ∧ b.mailbox u = m) where
  seen r rest b m hr h := by
    obtain ⟨hdrawn, rfl⟩ := h
    have hunused : ∀ id, r.cuid = some id → b.Unused id := by
      intro id hid
      exact hdrawn.unused id (by simp [hid])
    obtain ⟨hans, hmail⟩ := InboxRequest.serve_seen env hr hunused
    exact ⟨hans, hdrawn.serve env, hmail⟩
  hidden r rest b m hr h := by
    obtain ⟨hdrawn, rfl⟩ := h
    exact ⟨hdrawn.serve env, InboxRequest.serve_hidden env hr⟩

/-- In any run of notification requests by any users, what concerns `u` is answered as
the mailbox of `u` answers it, served with nothing else. -/
theorem mailboxes_independent (env : Env) (u : Id) {rs : List InboxRequest} {b : Backend}
    (hdrawn : CuidsDrawn rs b) :
    (answers (fun b r => InboxRequest.serve env b r) rs b).filter (fun a => a.1.concerns u) =
      answers (Mailbox.serve env) (rs.filter (·.concerns u)) (b.mailbox u) :=
  (inbox_unwinds env u).purge ⟨hdrawn, rfl⟩

section Sample

def emptyInboxes : Backend where
  world := untenantedWorld

def mixedRequests : List InboxRequest :=
  [.create 10 1 .billing "Paid" "Thanks" .null, .create 11 2 .team "Hi" "Welcome" .null,
    .route (bearer 2 "b@x.io") .markAllAsRead, .route (bearer 1 "a@x.io") (.markAsRead 10),
    .route (bearer 2 "b@x.io") (.markAsRead 10), .route (bearer 1 "a@x.io") (.getPreferences 12)]

theorem mixedRequests_drawn : CuidsDrawn mixedRequests emptyInboxes :=
  ⟨by decide, fun _ _ => ⟨rfl, rfl⟩⟩

theorem mailboxes_independent_mixed :
    (answers (fun b r => InboxRequest.serve sampleEnv b r) mixedRequests emptyInboxes).filter
      (fun a => a.1.concerns 1) =
        answers (Mailbox.serve sampleEnv) (mixedRequests.filter (·.concerns 1))
          (emptyInboxes.mailbox 1) :=
  mailboxes_independent sampleEnv 1 mixedRequests_drawn

end Sample

end SaasBackend
