import SaasBackend.ExpiredInvitations
import SaasBackend.ChallengeRaces
import SaasBackend.SessionEndings
import SaasBackend.HandlerEmbedding

/-! The whole database: `World` with the tables that its handlers leave alone
(notifications, their preferences, audit logs, dead-lettered jobs), and the
statements on these. -/

set_option autoImplicit false

namespace SaasBackend
open Keyed Handler

inductive NotificationType where
  | system | organization | billing | security | team
  deriving DecidableEq, Repr

structure Notification where
  userId : Id
  type : NotificationType
  title : String
  message : String
  data : Json := .obj []
  readAt : Option Time := none
  createdAt : Time := 0

structure NotificationPreference where
  userId : Id
  emailEnabled : Bool := true
  pushEnabled : Bool := true
  inAppEnabled : Bool := true
  mutedTypes : List NotificationType := []
  createdAt : Time := 0
  updatedAt : Time := 0
  deriving DecidableEq, Repr

def defaultPreferences (userId : Id) (now : Time) : NotificationPreference :=
  { userId, createdAt := now, updatedAt := now }

structure PreferencePatch where
  emailEnabled : Option Bool := none
  pushEnabled : Option Bool := none
  inAppEnabled : Option Bool := none
  mutedTypes : Option (List NotificationType) := none
  deriving DecidableEq, Repr

def PreferencePatch.apply (d : PreferencePatch) (p : NotificationPreference) :
    NotificationPreference :=
  { p with
    emailEnabled := d.emailEnabled.getD p.emailEnabled
    pushEnabled := d.pushEnabled.getD p.pushEnabled
    inAppEnabled := d.inAppEnabled.getD p.inAppEnabled
    mutedTypes := d.mutedTypes.getD p.mutedTypes }

/-- In the order the migrations added them, which is the order of the column. -/
inductive AuditAction where
  | userRegister | userLogin | userLogout | userLoginFailed
  | userBanned | userUnbanned | userSuspended | userUnsuspended | userRoleChanged
  | userDeleted | userPasswordChanged | userEmailChanged
  | orgCreated | orgUpdated | orgDeleted
  | memberAdded | memberRemoved | memberRoleChanged
  | apiKeyCreated | apiKeyRevoked | apiKeyDeleted
  | subscriptionCreated | subscriptionUpdated | subscriptionCanceled
  | checkoutStarted | portalOpened
  | memberInvited | invitationAccepted | invitationDeclined | invitationCanceled
  | userOauthLogin | userRestored | orgRestored
  | featureFlagCreated | featureFlagUpdated | featureFlagDeleted
  | featureFlagOverrideSet | featureFlagOverrideRemoved
  | userDataExported | userDataDeleted
  | twoFactorEnabled | twoFactorDisabled
  | apiKeyRestored | sessionRevoked | sessionsRevokedAll
  | orgOwnershipTransferred
  | projectCreated | projectUpdated | projectDeleted
  deriving DecidableEq, Repr

structure AuditLog where
  action : AuditAction
  userId : Option Id := none
  targetUserId : Option Id := none
  organizationId : Option Id := none
  ipAddress : Option String := none
  userAgent : Option String := none
  metadata : Json := .obj []
  createdAt : Time := 0

structure FailedJob where
  queue : String
  jobName : String
  jobData : Json
  error : String
  attempts : Nat
  failedAt : Time := 0

structure Backend where
  world : World := {}
  notifications : Table Notification := ∅
  notificationPreferences : Table NotificationPreference := ∅
  auditLogs : Table AuditLog := ∅
  failedJobs : Table FailedJob := ∅

/-- A statement on any table. Rows of the new tables come with the id that was drawn
for them. -/
inductive BackendStmt where
  | core (l : Stmt)
  | notificationCreate (id : Id) (row : Notification)
  | notificationUpdate (id : Id) (readAt : Time)
  | notificationReadAll (userId : Id) (readAt : Time)
  | notificationDelete (id : Id)
  | notificationCleanup (before : Time)
  | preferenceCreate (id userId : Id)
  | preferenceUpsert (id userId : Id) (data : PreferencePatch)
  | auditCreate (id : Id) (row : AuditLog)
  | auditCleanup (before : Time)
  | failedJobCreate (id : Id) (row : FailedJob)
  | failedJobCleanup (before : Time)
  | webhookEventCleanup (before : Time)

/-- What goes with user `id` beside the tables of `World`: notifications and
preferences (Cascade), the name in the audit log (SetNull). -/
def Backend.forget (b : Backend) (id : Id) : Backend :=
  { b with
    notifications := b.notifications.eraseWhere (fun _ n => n.userId == id)
    notificationPreferences := b.notificationPreferences.eraseWhere (fun _ p => p.userId == id)
    auditLogs := b.auditLogs.updateWhere (fun _ a => a.userId == some id)
      (fun a => { a with userId := none }) }

/-- The onDelete actions outside `World` of a statement that has been executed. -/
def Backend.cascade (b : Backend) : Stmt → Backend
  | .userDelete id => b.forget id
  | _ => b

def Backend.preferencesOf (b : Backend) (userId : Id) : Option (Id × NotificationPreference) :=
  b.notificationPreferences.find? (fun _ p => p.userId == userId)

/-- Insert a row under `id`: P2002 when a unique index is hit, P2003 when the user it
names is not there. -/
def insertNamed {α : Type} (t : Table α) (id : Id) (row : α) (taken exists_ : Bool)
    (f : Table α → Backend) : Except Err Backend :=
  if (t.get? id).isSome || taken then .error (.prisma .P2002)
  else if !exists_ then .error (.prisma .P2003)
  else .ok (f (t.insert id row))

def BackendStmt.exec : BackendStmt → Backend → Except Err Backend
  | .core l, b =>
    match l.exec b.world with
    | .error e => .error e
    | .ok w => .ok ({ b with world := w }.cascade l)
  | .notificationCreate id n, b =>
    insertNamed b.notifications id { n with createdAt := b.world.now } false
      (b.world.hasUser n.userId) (fun t => { b with notifications := t })
  | .notificationUpdate id readAt, b =>
    if (b.notifications.get? id).isNone then .error (.prisma .P2025)
    else .ok { b with
      notifications := b.notifications.update id (fun n => { n with readAt := some readAt }) }
  | .notificationReadAll userId readAt, b => .ok { b with
      notifications := b.notifications.updateWhere
        (fun _ n => n.userId == userId && n.readAt.isNone)
        (fun n => { n with readAt := some readAt }) }
  | .notificationDelete id, b =>
    if (b.notifications.get? id).isNone then .error (.prisma .P2025)
    else .ok { b with notifications := b.notifications.erase id }
  | .notificationCleanup before, b => .ok { b with
      notifications := b.notifications.eraseWhere (fun _ n => decide (n.createdAt < before)) }
  | .preferenceCreate id userId, b =>
    insertNamed b.notificationPreferences id (defaultPreferences userId b.world.now)
      (b.preferencesOf userId).isSome (b.world.hasUser userId)
      (fun t => { b with notificationPreferences := t })
  | .preferenceUpsert id userId d, b =>
    match b.preferencesOf userId with
    | some (k, _) => .ok { b with
        notificationPreferences := b.notificationPreferences.update k
          (fun p => { d.apply p with updatedAt := b.world.now }) }
    | none =>
      insertNamed b.notificationPreferences id
        (d.apply (defaultPreferences userId b.world.now)) false (b.world.hasUser userId)
        (fun t => { b with notificationPreferences := t })
  | .auditCreate id a, b =>
    insertNamed b.auditLogs id { a with createdAt := b.world.now } false
      (a.userId.all b.world.hasUser) (fun t => { b with auditLogs := t })
  | .auditCleanup before, b => .ok { b with
      auditLogs := b.auditLogs.eraseWhere (fun _ a => decide (a.createdAt < before)) }
  | .failedJobCreate id j, b =>
    insertNamed b.failedJobs id { j with failedAt := b.world.now } false true
      (fun t => { b with failedJobs := t })
  | .failedJobCleanup before, b => .ok { b with
      failedJobs := b.failedJobs.eraseWhere (fun _ j => decide (j.failedAt < before)) }
  | .webhookEventCleanup before, b => .ok { b with
      world := { b.world with
        processedWebhookEvents := b.world.processedWebhookEvents.eraseWhere
          (fun _ e => decide (e.createdAt < before)) } }

abbrev Act (α : Type) := Prog Backend Err BackendStmt α

namespace Act

def query {α : Type} (view : Backend → α) : Act α := .send (.core .read) view

def execute (l : BackendStmt) : Act Unit := Prog.send l (fun _ => ())

/-- `new Date()` -/
def date : Act Time := query (·.world.now)

end Act

def Req.lift {α : Type} (p : Req α) : Act α := p.embed .core Backend.world

theorem Backend.cascade_world (b : Backend) (l : Stmt) : (b.cascade l).world = b.world := by
  unfold cascade
  split <;> rfl

theorem exec_core (l : Stmt) (b : Backend) :
    ((BackendStmt.core l).exec b).map Backend.world = l.exec b.world := by
  simp only [BackendStmt.exec]
  cases l.exec b.world with
  | error e => rfl
  | ok w => simp [Except.map, Backend.cascade_world]

theorem insertNamed_ok {α : Type} {t : Table α} {id : Id} {row : α} {taken exists_ : Bool}
    {f : Table α → Backend} {b : Backend} (h : insertNamed t id row taken exists_ f = .ok b) :
    t.get? id = none ∧ taken = false ∧ exists_ = true ∧ b = f (t.insert id row) := by
  unfold insertNamed at h
  split at h
  · cases h
  · split at h
    · cases h
    · cases h
      simp_all

section Lifted

variable {α : Type} {b : Backend}

theorem run_lift {p : Req α} (hp : p.Sends (fun l => l = .read)) (b : Backend) :
    p.lift.run BackendStmt.exec b = ((p.runs b.world).1, b) := by
  have hsame : (p.lift.run BackendStmt.exec b).2 = b :=
    (hp.embed (Q := fun l => l = .core .read) (fun l hl => by rw [hl])).run
      (R := fun b b' : Backend => b' = b) (fun _ => rfl) (fun _ _ _ h₁ h₂ => h₂.trans h₁)
      (fun l b b' hl h => by subst hl; cases h; rfl) b
  exact Prod.ext (Prog.run_embed exec_core p b).1 hsame

theorem run_authenticated (header : AuthHeader) (k : Caller → Act α) :
    (((authenticate header).lift).bind k).run BackendStmt.exec b =
      match ((authenticate header).runs b.world).1 with
      | .ok caller => (k caller).run BackendStmt.exec b
      | .error e => (.error e, b) := by
  rw [Prog.run_bind, run_lift (authenticate_reads header)]
  cases ((authenticate header).runs b.world).1 <;> rfl

def Stmt.deletesUser : Stmt → Bool
  | .userDelete _ => true
  | _ => false

theorem cascade_spared {l : Stmt} (hl : l.deletesUser = false) : b.cascade l = b := by
  unfold Backend.cascade
  split
  · cases hl
  · rfl

theorem run_lift_tables {p : Req α} (hp : p.Sends (fun l => l.deletesUser = false))
    (b : Backend) :
    p.lift.run BackendStmt.exec b =
      ((p.run Stmt.exec b.world).1, { b with world := (p.run Stmt.exec b.world).2 }) := by
  have hworld := Prog.run_embed exec_core p b
  have hsame : ∃ w, (p.lift.run BackendStmt.exec b).2 = { b with world := w } := by
    have hsends : p.lift.Sends (fun l : BackendStmt =>
        ∃ l₀, l = .core l₀ ∧ l₀.deletesUser = false) := hp.embed fun l hl => ⟨l, rfl, hl⟩
    refine hsends.run (R := fun b b' : Backend => ∃ w, b' = { b with world := w })
      (fun b => ⟨b.world, rfl⟩) ?_ ?_ b
    · rintro b₁ _ _ ⟨w₁, rfl⟩ ⟨w₂, rfl⟩
      exact ⟨w₂, rfl⟩
    · rintro _ b b' ⟨l, rfl, hl⟩ hexec
      simp only [BackendStmt.exec] at hexec
      split at hexec
      · cases hexec
      · rename_i w hw
        cases hexec
        refine ⟨w, ?_⟩
        exact cascade_spared hl
  obtain ⟨w, hw⟩ := hsame
  refine Prod.ext hworld.1 ?_
  rw [hw]
  have hpart := hworld.2
  unfold Req.lift at hw
  rw [hw] at hpart
  simp only at hpart
  rw [hpart]

end Lifted

section Statements

variable {b b' : Backend} {l : BackendStmt}

theorem core_world {l : Stmt} (h : (BackendStmt.core l).exec b = .ok b') :
    l.exec b.world = .ok b'.world := by
  have hworld := exec_core l b
  rw [h] at hworld
  exact hworld.symm

/-- Of the statements on the other tables only the ledger's cleanup writes to `World`. -/
theorem exec_world_cases (h : l.exec b = .ok b') :
    (∃ l₀, l = .core l₀ ∧ l₀.exec b.world = .ok b'.world) ∨
      (∃ before, l = .webhookEventCleanup before) ∨ b'.world = b.world := by
  cases l with
  | core l₀ => exact .inl ⟨l₀, rfl, core_world h⟩
  | webhookEventCleanup before => exact .inr (.inl ⟨before, rfl⟩)
  | notificationCreate id n =>
    obtain ⟨_, _, _, rfl⟩ := insertNamed_ok (f := fun t => { b with notifications := t }) h
    exact .inr (.inr rfl)
  | preferenceCreate id userId =>
    obtain ⟨_, _, _, rfl⟩ :=
      insertNamed_ok (f := fun t => { b with notificationPreferences := t }) h
    exact .inr (.inr rfl)
  | preferenceUpsert id userId d =>
    simp only [BackendStmt.exec] at h
    split at h
    · cases h
      exact .inr (.inr rfl)
    · obtain ⟨_, _, _, rfl⟩ :=
        insertNamed_ok (f := fun t => { b with notificationPreferences := t }) h
      exact .inr (.inr rfl)
  | auditCreate id a =>
    obtain ⟨_, _, _, rfl⟩ := insertNamed_ok (f := fun t => { b with auditLogs := t }) h
    exact .inr (.inr rfl)
  | failedJobCreate id j =>
    obtain ⟨_, _, _, rfl⟩ := insertNamed_ok (f := fun t => { b with failedJobs := t }) h
    exact .inr (.inr rfl)
  | notificationUpdate id readAt =>
    simp only [BackendStmt.exec] at h
    split at h <;> cases h
    exact .inr (.inr rfl)
  | notificationDelete id =>
    simp only [BackendStmt.exec] at h
    split at h <;> cases h
    exact .inr (.inr rfl)
  | notificationReadAll userId readAt => cases h; exact .inr (.inr rfl)
  | notificationCleanup before => cases h; exact .inr (.inr rfl)
  | auditCleanup before => cases h; exact .inr (.inr rfl)
  | failedJobCleanup before => cases h; exact .inr (.inr rfl)

theorem exec_world (h : l.exec b = .ok b') :
    (∃ l₀, l = .core l₀ ∧ l₀.exec b.world = .ok b'.world) ∨
      ∃ events, b'.world = { b.world with processedWebhookEvents := events } := by
  rcases exec_world_cases h with hcore | ⟨before, rfl⟩ | hsame
  · exact .inl hcore
  · cases h
    exact .inr ⟨_, rfl⟩
  · exact .inr ⟨b.world.processedWebhookEvents, hsame⟩

theorem exec_now_le (h : l.exec b = .ok b') : b.world.now ≤ b'.world.now := by
  rcases exec_world h with ⟨l₀, _, hexec⟩ | ⟨events, hworld⟩
  · exact (exec_effect hexec).now_le
  · rw [hworld]

end Statements

end SaasBackend
