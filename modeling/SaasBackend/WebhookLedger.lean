import SaasBackend.Maintenance

set_option autoImplicit false

namespace SaasBackend
open Keyed Handler

def BackendStmt.sparesLedger : BackendStmt → Bool
  | .webhookEventCleanup _ => false
  | _ => true

def MaintenanceRequest.sparesLedger : MaintenanceRequest → Prop
  | .other p => p.Sends (fun l => l.sparesLedger = true)
  | _ => True

def MaintenanceRequest.Delivers (env : Env) (r : MaintenanceRequest) (event : StripeEvent) : Prop :=
  ∃ rawBody signature, r = .webhook rawBody (some signature) ∧
    env.constructEvent rawBody signature = .ok event

def StripeEvent.insert (event : StripeEvent) : BackendStmt :=
  .core (.webhookEventCreate event.id event.type)

def MaintenanceRequest.Handles (env : Env) (r : MaintenanceRequest)
    (h : List (BackendStmt × Backend)) (l : BackendStmt) : Prop :=
  ((∀ name, r ≠ .job name) → l.sparesLedger = true) ∧
    ∀ event, r.Delivers env event → l = event.insert ∨ ∃ b, (event.insert, b) ∈ h

/-- Event `id` was recorded at time `t`: it is still, unless that is longer ago than the
ledger keeps. -/
def Backend.Recorded (retention : Retention) (id : Id) (t : Time) (b : Backend) : Prop :=
  (∃ row, b.world.processedWebhookEvents.get? id = some row ∧ t ≤ row.createdAt) ∨
    t + retention.webhookEventDays * 24 * 60 * 60 * 1000 < b.world.now

theorem past_of_lt {t created now : Time} {days : Nat} (ht : t ≤ created)
    (hold : created < daysAgo now days) : t + days * 24 * 60 * 60 * 1000 < now := by
  unfold daysAgo at hold
  exact Nat.add_lt_of_lt_sub (Nat.lt_of_le_of_lt ht hold)

section Ledger

variable {env : Env} {retention : Retention} {b b' : Backend} {l : BackendStmt}

theorem ledger_kept (hl : l.sparesLedger = true) (h : l.exec b = .ok b') {id : Id}
    {row : ProcessedWebhookEvent} (hrow : b.world.processedWebhookEvents.get? id = some row) :
    b'.world.processedWebhookEvents.get? id = some row := by
  rcases exec_world_cases h with ⟨l₀, rfl, hexec⟩ | ⟨before, rfl⟩ | hsame
  · rw [(exec_effect hexec).processedWebhookEvents]
    cases l₀ with
    | webhookEventCreate id' type => exact Table.get?_insert_of_some hrow
    | _ => exact hrow
  · cases hl
  · rw [hsame]
    exact hrow

/-- The insert goes through only for an event that is not in the ledger. -/
theorem insert_ok {event : StripeEvent} (h : event.insert.exec b = .ok b') :
    b.world.processedWebhookEvents.get? event.id = none ∧
      b'.Recorded retention event.id b.world.now := by
  have hexec := core_world h
  have hrows := (exec_effect hexec).processedWebhookEvents
  simp only [Stmt.exec] at hexec
  split at hexec
  · cases hexec
  · rename_i hnew
    have hnone : b.world.processedWebhookEvents.get? event.id = none := by simpa using hnew
    refine ⟨hnone, .inl ⟨{ type := event.type, createdAt := b.world.now }, ?_, Nat.le_refl _⟩⟩
    rw [hrows, Stmt.processedWebhookEventsAfter, Table.get?_insert_self _ hnone]

theorem lift_sparesLedger {α : Type} (p : Req α) :
    p.lift.Sends (fun l => l.sparesLedger = true) := by
  refine Prog.Sends.embed (P := fun _ => True) (fun _ _ => ?_) (.of_forall (fun _ => trivial) p)
  rfl

theorem delivery_along (rawBody : String) (signature : Option String) :
    ((handleWebhook env rawBody signature).lift.bind fun _ => .ret ()).Along BackendStmt.exec
      (MaintenanceRequest.Handles env (.webhook rawBody signature)) (fun _ _ => True) [] := by
  unfold handleWebhook
  split
  · trivial
  · rename_i signature
    split
    · trivial
    · split
      · trivial
      · split
        · trivial
        · rename_i event hevent
          rw [processEvent_eq]
          have hfirst : ∀ other, (MaintenanceRequest.webhook rawBody (some signature)).Delivers env
              other → other = event := by
            rintro other ⟨_, _, heq, hother⟩
            cases heq
            rw [hevent] at hother
            exact (Except.ok.inj hother).symm
          refine ⟨⟨fun _ => rfl, fun other h => .inl (by rw [hfirst other h]; rfl)⟩,
            fun b b' _ => ?_, fun err => ?_⟩
          · refine .since (P := fun l => l.sparesLedger = true) ?_ (fun l own hl hown => ?_)
              fun _ _ _ => trivial
            · exact .bind (lift_sparesLedger _) fun _ => .ret
            · refine ⟨fun _ => hl, fun other h => .inr ⟨b, ?_⟩⟩
              rw [hfirst other h]
              exact hown.subset List.mem_cons_self
          · dsimp only
            split <;> trivial

theorem MaintenanceRequest.handles (r : MaintenanceRequest) (hr : r.sparesLedger) :
    (r.prog env retention).Along BackendStmt.exec (r.Handles env) (fun _ _ => True) [] := by
  cases r with
  | webhook rawBody signature => exact delivery_along rawBody signature
  | job name =>
    refine .since (.of_forall (P := fun _ => True) (fun _ => trivial) _) (fun l own _ _ => ?_)
      fun _ _ _ => trivial
    refine ⟨fun hnot => absurd rfl (hnot name), ?_⟩
    rintro event ⟨_, _, heq, _⟩
    cases heq
  | other p =>
    refine .since hr (fun l own hl _ => ⟨fun _ => hl, ?_⟩) fun _ _ _ => trivial
    rintro event ⟨_, _, heq, _⟩
    cases heq

end Ledger

section Runs

variable {env : Env} {retention : Retention} {b₀ b b' : Backend}
  {tr tr₁ tr₂ : List MaintenanceEvent} {c : MaintenanceConfig} {i j : Nat} {l : BackendStmt}
  {event : StripeEvent}

abbrev LedgerRun (env : Env) (retention : Retention) :
    MaintenanceConfig → List MaintenanceEvent → MaintenanceConfig → Prop :=
  MaintenanceRun env retention MaintenanceRequest.sparesLedger

/-- Each event of a run keeps what was recorded for as long as the ledger does. -/
theorem LedgerRun.keeps (hrun : LedgerRun env retention ⟨b₀, []⟩ tr c)
    (hfire : .fire i l b b' ∈ tr) {id : Id} {t : Time} (h : b.Recorded retention id t) :
    b'.Recorded retention id t := by
  have hrecalled := Recalled.steps (fun r hr => MaintenanceRequest.handles r hr) hrun
  obtain ⟨tr₂, tr₁, htr⟩ := List.append_of_mem hfire
  obtain ⟨hstore, q, hq, hspares, _⟩ := hrecalled.events tr₁ tr₂ i l b b' htr
  rcases hstore with hexec | ⟨_, rfl⟩
  · rcases h with ⟨row, hrow, ht⟩ | hpast
    · by_cases hkept : (Perishable.webhookEvent id row).Stored b'
      · exact .inl ⟨row, hkept, ht⟩
      · obtain ⟨r, p⟩ := q
        cases r with
        | job name =>
          have hexpired := ((MaintenanceRun.deletes hrun hfire hq
            (.webhookEvent id row)).2 hrow hkept).2
          have hold : row.createdAt < daysAgo b.world.now retention.webhookEventDays :=
            of_decide_eq_true hexpired
          have hnow := exec_now_le hexec
          exact .inr (Nat.lt_of_lt_of_le (past_of_lt ht hold) hnow)
        | webhook rawBody signature =>
          exact absurd (ledger_kept (hspares fun _ h => by cases h) hexec hrow) hkept
        | other p =>
          exact absurd (ledger_kept (hspares fun _ h => by cases h) hexec hrow) hkept
    · exact .inr (Nat.lt_of_lt_of_le hpast (exec_now_le hexec))
  · exact h

/-- Two inserts for one event are further apart than the ledger keeps the first. -/
theorem LedgerRun.apart (hrun : LedgerRun env retention ⟨b₀, []⟩ tr c)
    (htr : tr = tr₂ ++ .fire i event.insert b b' :: tr₁) (hok : event.insert.exec b = .ok b')
    {event' : StripeEvent} (hid : event'.id = event.id) {s s' : Backend}
    (hfire : .fire j event'.insert s s' ∈ tr₂) (hok' : event'.insert.exec s = .ok s') :
    b.world.now + retention.webhookEventDays * 24 * 60 * 60 * 1000 < s.world.now := by
  obtain ⟨_, c₂, _, _, _, hstore, hafter⟩ := Steps.at_fire (htr ▸ hrun)
  have hkeeps : ∀ i l s s', .fire i l s s' ∈ tr₂ →
      s.Recorded retention event.id b.world.now → s'.Recorded retention event.id b.world.now := by
    intro i l s s' hmem
    exact LedgerRun.keeps hrun (by rw [htr]; exact List.mem_append_left _ hmem)
  have hsince := (Steps.carries hafter hkeeps (hstore ▸ (insert_ok hok).2)).2 j _ s s' hfire
  rcases hsince with ⟨row, hrow, _⟩ | hpast
  · rw [← hid, (@insert_ok retention _ _ _ hok').1] at hrow
    cases hrow
  · exact hpast

theorem insert_mem {r : MaintenanceRequest} {h : List (BackendStmt × Backend)}
    (hl : r.Handles env h l) (hr : r.Delivers env event) (hne : l ≠ event.insert) :
    ∃ b, (event.insert, b) ∈ h :=
  (hl.2 event hr).resolve_left hne

end Runs

/-- Among any requests, with the cleanup running at any times: of two deliveries of one event
that are both handled, one was recorded longer ago than the ledger keeps when the other was.
A redelivery within the window is never handled again. -/
theorem event_handled_once (env : Env) (retention : Retention) {b₀ : Backend}
    {tr : List MaintenanceEvent} {c : MaintenanceConfig}
    (hrun : LedgerRun env retention ⟨b₀, []⟩ tr c) {i j : Nat} (hij : i ≠ j)
    {r r' : MaintenanceRequest} {p p' : Act Unit} (hi : c.pool[i]? = some (r, p))
    (hj : c.pool[j]? = some (r', p')) {event event' : StripeEvent} (hr : r.Delivers env event)
    (hr' : r'.Delivers env event') (hid : event'.id = event.id) {l l' : BackendStmt}
    {b b' s s' : Backend} (hl : .fire i l b b' ∈ tr) (hl' : .fire j l' s s' ∈ tr)
    (hne : l ≠ event.insert) (hne' : l' ≠ event'.insert) :
    ∃ b₁ b₂ s₁ s₂, .fire i event.insert b₁ b₂ ∈ tr ∧ .fire j event'.insert s₁ s₂ ∈ tr ∧
      (b₁.world.now + retention.webhookEventDays * 24 * 60 * 60 * 1000 < s₁.world.now ∨
        s₁.world.now + retention.webhookEventDays * 24 * 60 * 60 * 1000 < b₁.world.now) := by
  have hrecalled := Recalled.steps (fun r hr => MaintenanceRequest.handles r hr) hrun
  have hinserted : ∀ {k r p event l b b'}, c.pool[k]? = some (r, p) → r.Delivers env event →
      .fire k l b b' ∈ tr → l ≠ event.insert →
      ∃ b₁ b₂, .fire k event.insert b₁ b₂ ∈ tr ∧ event.insert.exec b₁ = .ok b₂ := by
    intro k r p event l b b' hk hr hfire hne
    obtain ⟨tr₂, tr₁, htr⟩ := List.append_of_mem hfire
    obtain ⟨_, q, hq, hhandles⟩ := hrecalled.events tr₁ tr₂ k l b b' htr
    rw [hk] at hq
    cases hq
    obtain ⟨b₁, hown⟩ := insert_mem hhandles hr hne
    have hmem : (event.insert, b₁) ∈ own BackendStmt.exec k tr := by
      rw [htr, List.append_cons]
      exact mem_own_append hown _
    obtain ⟨b₂, hfired⟩ := hrecalled.fired hmem
    exact ⟨b₁, b₂, hfired⟩
  obtain ⟨b₁, b₂, hfire, hok⟩ := hinserted hi hr hl hne
  obtain ⟨s₁, s₂, hfire', hok'⟩ := hinserted hj hr' hl' hne'
  refine ⟨b₁, b₂, s₁, s₂, hfire, hfire', ?_⟩
  obtain ⟨tr₂, tr₁, htr⟩ := List.append_of_mem hfire
  have hmem := hfire'
  rw [htr] at hmem
  rcases List.mem_append.mp hmem with hlater | hrest
  · exact .inl (LedgerRun.apart hrun htr hok hid hlater hok')
  · rcases List.mem_cons.mp hrest with heq | hbefore
    · exact absurd (Event.fire.inj heq).1.symm hij
    · obtain ⟨u₂, u₁, hu⟩ := List.append_of_mem hbefore
      have hat : tr = (tr₂ ++ .fire i event.insert b₁ b₂ :: u₂) ++
          .fire j event'.insert s₁ s₂ :: u₁ := by
        rw [htr, hu]
        simp
      exact .inr (LedgerRun.apart (j := i) hrun hat hok' hid.symm (by simp) hok)

section Sample

def checkoutBackend : Backend where
  world := checkoutWorld

def redelivered : List (MaintenanceRequest ⊕ Nat) :=
  .inl (.webhook "" (some "")) :: List.replicate 8 (.inr 0) ++
    [.inl (.other (Act.execute (.core (.tick (31 * 24 * 60 * 60 * 1000))))), .inr 1,
      .inl (.job "cleanupProcessedWebhookEvents"), .inr 2, .inr 2,
      .inl (.webhook "" (some "")), .inr 3, .inr 3]

def redelivery : MaintenanceConfig :=
  Config.play BackendStmt.exec (MaintenanceRequest.prog checkout.env {}) ⟨checkoutBackend, []⟩
    redelivered

def redeliveryTrace : List MaintenanceEvent :=
  Config.trace BackendStmt.exec (MaintenanceRequest.prog checkout.env {}) ⟨checkoutBackend, []⟩
    redelivered []

theorem redelivery_run :
    LedgerRun checkout.env {} ⟨checkoutBackend, []⟩ redeliveryTrace redelivery := by
  refine Config.trace_steps BackendStmt.exec _ redelivered (fun r hr => ?_) .refl
  have hcases : r = .webhook "" (some "") ∨ r = .job "cleanupProcessedWebhookEvents" ∨
      r = .other (Act.execute (.core (.tick (31 * 24 * 60 * 60 * 1000)))) := by
    simp only [redelivered, List.mem_append, List.mem_cons, List.mem_replicate, Sum.inl.injEq,
      reduceCtorEq, List.not_mem_nil] at hr
    tauto
  rcases hcases with rfl | rfl | rfl
  · trivial
  · trivial
  · exact Prog.Sends.send (P := fun l : BackendStmt => l.sparesLedger = true) rfl

theorem event_handled_once_redelivery :
    ∃ b₁ b₂ s₁ s₂, .fire 0 checkoutEvent.insert b₁ b₂ ∈ redeliveryTrace ∧
      .fire 3 checkoutEvent.insert s₁ s₂ ∈ redeliveryTrace ∧
      (b₁.world.now + 30 * 24 * 60 * 60 * 1000 < s₁.world.now ∨
        s₁.world.now + 30 * 24 * 60 * 60 * 1000 < b₁.world.now) :=
  have hread : BackendStmt.core .read ≠ checkoutEvent.insert := fun h => by cases h
  event_handled_once checkout.env {} redelivery_run (i := 0) (j := 3) (by decide) rfl rfl
    ⟨"", "", rfl, rfl⟩ ⟨"", "", rfl, rfl⟩ rfl
    (List.mem_of_getElem? (i := 12) rfl) (List.mem_of_getElem? (i := 0) rfl) hread hread

end Sample

end SaasBackend
