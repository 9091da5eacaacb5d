import SaasBackend.NotificationService
import SaasBackend.WebhookRetries

/-! src/modules/jobs/maintenance.worker.js: what it deletes, at any time and among any
requests, and what it leaves. Webhook deliveries go by the ledger that it bounds. -/

set_option autoImplicit false

namespace SaasBackend
open Keyed Handler

/-- The retention windows of the environment in whole days; `Number` would also let fractions,
negative numbers and NaN through. -/
structure Retention where
  auditLogDays : Nat := 365
  notificationDays : Nat := 90
  invitationDays : Nat := 30
  failedJobDays : Nat := 90
  webhookEventDays : Nat := 30

/-- A `deleteMany` of what is old at the time it is asked; the rows deleted are counted. -/
def deleteOld (stmt : Time → BackendStmt) (old : Time → Backend → Nat) : Act Nat := do
  let now ← Act.date
  .send (stmt now) (old now)

def cleanupAuditLogs (days : Nat) : Act Nat :=
  deleteOld (fun now => .auditCleanup (daysAgo now days)) (fun now b =>
    (b.auditLogs.filter (fun _ a => decide (a.createdAt < daysAgo now days))).length)

def cleanupFailedJobs (days : Nat) : Act Nat :=
  deleteOld (fun now => .failedJobCleanup (daysAgo now days)) (fun now b =>
    (b.failedJobs.filter (fun _ j => decide (j.failedAt < daysAgo now days))).length)

def cleanupProcessedWebhookEvents (days : Nat) : Act Nat :=
  deleteOld (fun now => .webhookEventCleanup (daysAgo now days)) (fun now b =>
    (b.world.processedWebhookEvents.filter (fun _ e =>
      decide (e.createdAt < daysAgo now days))).length)

def processMaintenanceJob (retention : Retention) (name : String) : Act (Option Nat) :=
  match name with
  | "cleanupRefreshTokens" => cleanupRefreshTokens.lift.bind fun n => .ret (some n)
  | "cleanupTwoFactorChallenges" => cleanupTwoFactorChallenges.lift.bind fun n => .ret (some n)
  | "cleanupAuditLogs" => (cleanupAuditLogs retention.auditLogDays).bind fun n => .ret (some n)
  | "cleanupNotifications" =>
    (cleanupNotifications retention.notificationDays).bind fun n => .ret (some n)
  | "cleanupTerminalInvitations" =>
    (cleanupTerminalInvitations retention.invitationDays).lift.bind fun n => .ret (some n)
  | "cleanupFailedJobs" =>
    (cleanupFailedJobs retention.failedJobDays).bind fun n => .ret (some n)
  | "cleanupProcessedWebhookEvents" =>
    (cleanupProcessedWebhookEvents retention.webhookEventDays).bind fun n => .ret (some n)
  | _ => .ret none

/-- `OTHER_CLEANUP_JOB_NAMES` of maintenance.producer.js -/
def otherCleanupJobNames : List String :=
  ["cleanupTwoFactorChallenges", "cleanupAuditLogs", "cleanupNotifications",
    "cleanupTerminalInvitations", "cleanupFailedJobs", "cleanupProcessedWebhookEvents"]

def scheduledJobs : List String := "cleanupRefreshTokens" :: otherCleanupJobNames

/-- A row of a table that would otherwise grow forever. -/
inductive Perishable where
  | refreshToken (id : Id) (row : RefreshToken)
  | twoFactorChallenge (id : Id) (row : TwoFactorChallenge)
  | auditLog (id : Id) (row : AuditLog)
  | notification (id : Id) (row : Notification)
  | invitation (id : Id) (row : OrganizationInvitation)
  | failedJob (id : Id) (row : FailedJob)
  | webhookEvent (id : Id) (row : ProcessedWebhookEvent)

namespace Perishable

def Stored (b : Backend) : Perishable → Prop
  | refreshToken id row => b.world.refreshTokens.get? id = some row
  | twoFactorChallenge id row => b.world.twoFactorChallenges.get? id = some row
  | auditLog id row => b.auditLogs.get? id = some row
  | notification id row => b.notifications.get? id = some row
  | invitation id row => b.world.invitations.get? id = some row
  | failedJob id row => b.failedJobs.get? id = some row
  | webhookEvent id row => b.world.processedWebhookEvents.get? id = some row

def job : Perishable → String
  | refreshToken .. => "cleanupRefreshTokens"
  | twoFactorChallenge .. => "cleanupTwoFactorChallenges"
  | auditLog .. => "cleanupAuditLogs"
  | notification .. => "cleanupNotifications"
  | invitation .. => "cleanupTerminalInvitations"
  | failedJob .. => "cleanupFailedJobs"
  | webhookEvent .. => "cleanupProcessedWebhookEvents"

/-- The row has no use any more: a token or challenge that is not accepted, an invitation
settled long ago, and what is past its window. -/
def expired (retention : Retention) (now : Time) : Perishable → Bool
  | refreshToken _ t =>
    decide (t.expiresAt < now) || (t.revoked && decide (t.updatedAt < daysAgo now 7))
  | twoFactorChallenge _ c => decide (c.expiresAt < now)
  | auditLog _ a => decide (a.createdAt < daysAgo now retention.auditLogDays)
  | notification _ n => decide (n.createdAt < daysAgo now retention.notificationDays)
  | invitation _ i =>
    i.status != .pending && decide (i.updatedAt < daysAgo now retention.invitationDays)
  | failedJob _ j => decide (j.failedAt < daysAgo now retention.failedJobDays)
  | webhookEvent _ e => decide (e.createdAt < daysAgo now retention.webhookEventDays)

end Perishable

def cleanupStmt (retention : Retention) (name : String) (now : Time) : Option BackendStmt :=
  match name with
  | "cleanupRefreshTokens" => some (.core (.refreshTokenCleanup now (daysAgo now 7)))
  | "cleanupTwoFactorChallenges" => some (.core (.challengeCleanup now))
  | "cleanupAuditLogs" => some (.auditCleanup (daysAgo now retention.auditLogDays))
  | "cleanupNotifications" =>
    some (.notificationCleanup (daysAgo now retention.notificationDays))
  | "cleanupTerminalInvitations" =>
    some (.core (.invitationCleanup (daysAgo now retention.invitationDays)))
  | "cleanupFailedJobs" => some (.failedJobCleanup (daysAgo now retention.failedJobDays))
  | "cleanupProcessedWebhookEvents" =>
    some (.webhookEventCleanup (daysAgo now retention.webhookEventDays))
  | _ => none

section Rows

variable {retention : Retention} {name : String} {now now' : Time} {b b' : Backend}
  {l : BackendStmt} {row : Perishable}

theorem daysAgo_mono (days : Nat) (h : now ≤ now') : daysAgo now days ≤ daysAgo now' days :=
  Nat.sub_le_sub_right h _

theorem Perishable.expired_mono (h : now ≤ now') (hrow : row.expired retention now = true) :
    row.expired retention now' = true := by
  have hmono : ∀ days, daysAgo now days ≤ daysAgo now' days := fun days => daysAgo_mono days h
  have hpast : ∀ {t u v : Time}, u ≤ v → t < u → t < v :=
    fun huv htu => Nat.lt_of_lt_of_le htu huv
  cases row with
  | refreshToken id t =>
    simp only [expired, Bool.or_eq_true, Bool.and_eq_true, decide_eq_true_eq] at hrow ⊢
    exact hrow.imp (hpast h) (And.imp_right (hpast (hmono 7)))
  | invitation id i =>
    simp only [expired, Bool.and_eq_true, decide_eq_true_eq] at hrow ⊢
    exact ⟨hrow.1, hpast (hmono _) hrow.2⟩
  | twoFactorChallenge id c =>
    simp only [expired, decide_eq_true_eq] at hrow ⊢
    exact hpast h hrow
  | _ =>
    simp only [expired, decide_eq_true_eq] at hrow ⊢
    exact hpast (hmono _) hrow

/-- The statement of a job deletes the old rows of its table, and touches no other. -/
theorem cleanup_stored (hl : cleanupStmt retention name now = some l) (h : l.exec b = .ok b') :
    row.Stored b' ↔ row.Stored b ∧ ¬ (row.job = name ∧ row.expired retention now = true) := by
  unfold cleanupStmt at hl
  split at hl <;> cases hl <;> cases h <;> cases row <;>
    simp [-Table.get?_eraseWhere, Perishable.Stored, Perishable.job, Perishable.expired,
      Backend.cascade, Table.get?_eraseWhere_eq_some]

end Rows

inductive MaintenanceRequest where
  | job (name : String)
  | webhook (rawBody : String) (signature : Option String)
  | other (p : Act Unit)

def MaintenanceRequest.prog (env : Env) (retention : Retention) : MaintenanceRequest → Act Unit
  | .job name => (processMaintenanceJob retention name).bind fun _ => .ret ()
  | .webhook rawBody signature =>
    (handleWebhook env rawBody signature).lift.bind fun _ => .ret ()
  | .other p => p

abbrev MaintenanceConfig := Config MaintenanceRequest Backend Err BackendStmt Unit
abbrev MaintenanceEvent := Event MaintenanceRequest Backend BackendStmt

abbrev MaintenanceRun (env : Env) (retention : Retention) (may : MaintenanceRequest → Prop) :
    MaintenanceConfig → List MaintenanceEvent → MaintenanceConfig → Prop :=
  Steps (Step BackendStmt.exec (MaintenanceRequest.prog env retention) may (fun _ _ => True))

def MaintenanceRequest.Sends (retention : Retention) (r : MaintenanceRequest)
    (h : List (BackendStmt × Backend)) (l : BackendStmt) : Prop :=
  ∀ name, r = .job name → l = .core .read ∨ ∃ b, (.core .read, b) ∈ h ∧
    cleanupStmt retention name b.world.now = some l

def MaintenanceRequest.Cleaned (retention : Retention) (r : MaintenanceRequest)
    (h : List (BackendStmt × Backend)) (_ : Unit) : Prop :=
  ∀ name, r = .job name → name ∈ scheduledJobs → ∃ b b' l, (.core .read, b) ∈ h ∧
    (l, b') ∈ h ∧ cleanupStmt retention name b.world.now = some l

section Jobs

variable {env : Env} {retention : Retention} {may : MaintenanceRequest → Prop} {name : String}
  {b₀ b b' : Backend} {tr : List MaintenanceEvent} {c₀ c : MaintenanceConfig} {i : Nat}
  {l : BackendStmt}

theorem cleanup_along {p : Act Unit} {stmt : Time → BackendStmt}
    (hp : p = .stmt (.core .read)
      (fun b => .stmt (stmt b.world.now) (fun _ => .ret ()) .throw) .throw)
    (hstmt : ∀ now, cleanupStmt retention name now = some (stmt now)) :
    p.Along BackendStmt.exec (MaintenanceRequest.Sends retention (.job name))
      (MaintenanceRequest.Cleaned retention (.job name)) [] := by
  subst hp
  refine ⟨fun _ _ => .inl rfl, fun b b' hread => ⟨?_, fun b₁ b₂ hclean => ?_, fun _ => trivial⟩,
    fun _ => trivial⟩
  · rintro _ heq
    cases heq
    exact .inr ⟨b, List.mem_cons_self, hstmt _⟩
  · rintro _ heq _
    cases heq
    exact ⟨b, b₁, _, .tail _ List.mem_cons_self, List.mem_cons_self, hstmt _⟩

theorem MaintenanceRequest.along (r : MaintenanceRequest) :
    (r.prog env retention).Along BackendStmt.exec (r.Sends retention) (r.Cleaned retention)
      [] := by
  cases r with
  | job name =>
    simp only [prog, processMaintenanceJob]
    split
    case h_8 =>
      rintro _ heq hname
      cases heq
      simp_all [scheduledJobs, otherCleanupJobNames]
    all_goals exact cleanup_along rfl (fun _ => rfl)
  | _ =>
    refine .since (.of_forall (P := fun _ => True) (fun _ => trivial) _) (fun l own _ _ => ?_)
      fun a own _ => ?_
    · rintro _ heq
      cases heq
    · rintro _ heq
      cases heq

theorem MaintenanceRun.now_le (hrun : MaintenanceRun env retention may c₀ tr c)
    (hfire : .fire i l b b' ∈ tr) : b.world.now ≤ c.store.world.now :=
  (Steps.since (r := fun b b' : Backend => b.world.now ≤ b'.world.now) (fun _ => Nat.le_refl _)
    (fun _ _ _ => Nat.le_trans) (fun _ _ _ => exec_now_le) hrun).2 i l b b' hfire

/-- A job deletes a row only when it is one of its own table and has expired, and adds none. -/
theorem MaintenanceRun.deletes (hrun : MaintenanceRun env retention may ⟨b₀, []⟩ tr c)
    (hfire : .fire i l b b' ∈ tr) {p : Act Unit} (hi : c.pool[i]? = some (.job name, p))
    (row : Perishable) :
    (row.Stored b' → row.Stored b) ∧ (row.Stored b → ¬ row.Stored b' →
      row.job = name ∧ row.expired retention b.world.now = true) := by
  have hrecalled := Recalled.steps (fun r _ => MaintenanceRequest.along r) hrun
  obtain ⟨tr₂, tr₁, htr⟩ := List.append_of_mem hfire
  obtain ⟨hstore, q, hq, hsends⟩ := hrecalled.events tr₁ tr₂ i l b b' htr
  rw [hi] at hq
  cases hq
  rcases hstore with hexec | ⟨_, rfl⟩
  · rcases hsends name rfl with rfl | ⟨b₁, hread, hl⟩
    · cases hexec
      exact ⟨id, fun h hnot => absurd h hnot⟩
    · have hstored : row.Stored b' ↔ row.Stored b ∧ ¬ (row.job = name ∧
          row.expired retention b₁.world.now = true) := cleanup_stored hl hexec
      refine ⟨fun h => (hstored.mp h).1, fun h hnot => ?_⟩
      obtain ⟨hjob, hexpired⟩ : row.job = name ∧ row.expired retention b₁.world.now = true := by
        by_contra hkept
        exact hnot (hstored.mpr ⟨h, hkept⟩)
      obtain ⟨_, hbefore, _⟩ := mem_own hread
      obtain ⟨c₁, _, hupto, rfl, _⟩ := Steps.at_fire (htr ▸ hrun)
      exact ⟨hjob, Perishable.expired_mono (MaintenanceRun.now_le hupto hbefore) hexpired⟩
  · exact ⟨id, fun h hnot => absurd h hnot⟩

end Jobs

/-- Among any requests, and at any number of times: a job deletes a row only when it is one
of its own table and has expired, and adds none; and every job that is scheduled, once it is
done, has left no row of its table that had expired when it began. -/
theorem maintenance_exact (env : Env) (retention : Retention) {b₀ : Backend}
    {tr : List MaintenanceEvent} {c : MaintenanceConfig}
    (hrun : MaintenanceRun env retention (fun _ => True) ⟨b₀, []⟩ tr c) :
    (∀ i l b b' name p, .fire i l b b' ∈ tr → c.pool[i]? = some (.job name, p) →
      ∀ row : Perishable, (row.Stored b' → row.Stored b) ∧ (row.Stored b → ¬ row.Stored b' →
        row.job = name ∧ row.expired retention b.world.now = true)) ∧
    ∀ i name, c.pool[i]? = some (.job name, .ret ()) → name ∈ scheduledJobs →
      ∃ b₁ l b b', .fire i (.core .read) b₁ b₁ ∈ tr ∧ .fire i l b b' ∈ tr ∧
        ∀ row : Perishable, row.job = name → row.Stored b' →
          row.expired retention b₁.world.now = false := by
  refine ⟨fun i l b b' name p hfire hi row => MaintenanceRun.deletes hrun hfire hi row,
    fun i name hi hname => ?_⟩
  have hrecalled := Recalled.steps (fun r _ => MaintenanceRequest.along r) hrun
  obtain ⟨b, b', l, hread, hclean, hl⟩ := hrecalled.pool i _ hi name rfl hname
  obtain ⟨b₁, hfirst, hread⟩ := hrecalled.fired hread
  obtain ⟨b₂, hsecond, hexec⟩ := hrecalled.fired hclean
  cases hread
  refine ⟨b, l, b', b₂, hfirst, hsecond, fun row hjob hrow => ?_⟩
  have hkept := ((cleanup_stored hl hexec).mp hrow).2
  simpa [hjob] using hkept

section Sample

def agedBackend : Backend where
  world := { now := 51 * 24 * 60 * 60 * 1000 }
  notifications := ((∅ : Table Notification).insert 10
    ⟨1, .billing, "Paid", "Thanks", .null, none, 1⟩).insert 11
      ⟨1, .team, "Hi", "Welcome", .null, none, 50 * 24 * 60 * 60 * 1000⟩

def lateCleanup : List (MaintenanceRequest ⊕ Nat) :=
  [.inl (.job "cleanupNotifications"), .inr 0,
    .inl (.other (Act.execute (.core (.tick (40 * 24 * 60 * 60 * 1000))))), .inr 1, .inr 0]

def cleaned : MaintenanceConfig :=
  Config.play BackendStmt.exec (MaintenanceRequest.prog sampleEnv { notificationDays := 30 })
    ⟨agedBackend, []⟩ lateCleanup

def cleanedTrace : List MaintenanceEvent :=
  Config.trace BackendStmt.exec (MaintenanceRequest.prog sampleEnv { notificationDays := 30 })
    ⟨agedBackend, []⟩ lateCleanup []

theorem cleaned_run :
    MaintenanceRun sampleEnv { notificationDays := 30 } (fun _ => True) ⟨agedBackend, []⟩
      cleanedTrace cleaned :=
  Config.trace_steps BackendStmt.exec _ lateCleanup (fun _ _ => trivial) .refl

theorem maintenance_exact_late : ∃ b₁ l b b',
    .fire 0 (.core .read) b₁ b₁ ∈ cleanedTrace ∧ .fire 0 l b b' ∈ cleanedTrace ∧
      ∀ row : Perishable, row.job = "cleanupNotifications" → row.Stored b' →
        row.expired { notificationDays := 30 } b₁.world.now = false :=
  (maintenance_exact sampleEnv { notificationDays := 30 } cleaned_run).2 0
    "cleanupNotifications" rfl (by decide)

example : cleaned.store.notifications.rows.map Prod.fst = [11] := by decide

end Sample

end SaasBackend
