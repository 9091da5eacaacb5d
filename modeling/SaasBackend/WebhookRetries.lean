import SaasBackend.BillingService
import SaasBackend.Footprints
import SaasBackend.HandlerFailures

/-! What is left of a webhook event whose processing failed. The ledger row is written
before the handler runs, so the first delivery that gets past the insert is the only one
whose handler runs at all. -/

set_option autoImplicit false

namespace SaasBackend
open Keyed Handler

structure SignedEvent where
  env : Env
  rawBody : String
  signature : String
  event : StripeEvent
  configured : env.stripeConfigured = true ∧ env.webhookSecretConfigured = true
  signed : env.constructEvent rawBody signature = .ok event

def SignedEvent.handle (e : SignedEvent) : Req WebhookReply :=
  handleWebhook e.env e.rawBody (some e.signature)

/-- One delivery: entry `i` of `failures` is what the `i`-th statement fails with, if it
does. -/
structure Attempt where
  wait : Time
  failures : List (Option Err)

def attempt (e : SignedEvent) (w : World) (a : Attempt) : World :=
  (e.handle.runFaulty Stmt.exec a.failures { w with now := w.now + a.wait }).2

def attemptAll (e : SignedEvent) (w : World) (as : List Attempt) : World := as.foldl (attempt e) w

def instants : Time → List Attempt → List Time
  | _, [] => []
  | now, a :: rest => (now + a.wait) :: instants (now + a.wait) rest

/-- The first delivery whose first statement, the ledger insert, does not fail. -/
def firstRecorded : Time → List Attempt → Option (Time × List (Option Err))
  | _, [] => none
  | now, a :: rest =>
    if a.failures.head?.join.isSome then firstRecorded (now + a.wait) rest
    else some (now + a.wait, a.failures)

/-- What the statements of the three handlers do to the subscriptions is all they do. -/
def quietSubscriptions (w w' : World) : Prop := w'.subscriptions = w.subscriptions

theorem quietSubscriptions.refl (w : World) : quietSubscriptions w w := rfl

theorem quietSubscriptions.trans {w₁ w₂ w₃ : World} (h₁ : quietSubscriptions w₁ w₂)
    (h₂ : quietSubscriptions w₂ w₃) : quietSubscriptions w₁ w₃ := Eq.trans h₂ h₁

def keepsLedger (w w' : World) : Prop := w'.processedWebhookEvents = w.processedWebhookEvents

theorem keepsLedger.refl (w : World) : keepsLedger w w := rfl

theorem keepsLedger.trans {w₁ w₂ w₃ : World} (h₁ : keepsLedger w₁ w₂) (h₂ : keepsLedger w₂ w₃) :
    keepsLedger w₁ w₃ := Eq.trans h₂ h₁

def WritesNoLedger (l : Stmt) : Prop := ∀ id type, l ≠ .webhookEventCreate id type

section Handlers

theorem handleEvent_keepsLedger (event : StripeEvent) :
    (handleEvent event).Sends WritesNoLedger := by
  refine (handleEvent_sends event).mono fun l hl => ?_
  rintro id type rfl
  cases hl

def Raised (e : Err) : Prop := e ≠ .prisma .P2002

theorem failsFlat_query_bind {α β : Type} {view : World → α} {k : α → Req β} {w : World}
    (h : (k (view w)).FailsFlat Stmt.exec Raised quietSubscriptions w) :
    ((query view).bind k).FailsFlat Stmt.exec Raised quietSubscriptions w :=
  Prog.failsFlat_send_bind.mpr (.inr ⟨rfl, h⟩)

theorem subscriptionApply_stale {s : Subscription} {stamp : Time} {w : World}
    (hany : w.subscriptions.any
      (fun _ r => subscriptionFresh s.stripeSubscriptionId stamp r) = false) :
    (Stmt.subscriptionApply s stamp).exec w = .ok w := by
  simp only [Stmt.exec]
  exact if_neg (by simpa [subscriptionFresh] using hany)

theorem subscriptionApply_fresh {s : Subscription} {stamp : Time} {w w' : World}
    (h : (Stmt.subscriptionApply s stamp).exec w = .ok w')
    (hany : w.subscriptions.any
      (fun _ r => subscriptionFresh s.stripeSubscriptionId stamp r) = true) :
    w'.subscriptions = w.subscriptions.updateWhere
      (fun _ r => subscriptionFresh s.stripeSubscriptionId stamp r)
      (fun r => { s with createdAt := r.createdAt }) := by
  simp only [Stmt.exec] at h
  rw [if_pos (by simpa [subscriptionFresh] using hany)] at h
  split at h
  · cases h
  · split at h <;> cases h
    rfl

theorem subscriptionCreate_ok {s : Subscription} {w w' : World}
    (h : (Stmt.subscriptionCreate s).exec w = .ok w') :
    w'.subscriptions = w.subscriptions.insert w.nonce { s with createdAt := w.now } ∧
      ∀ k r, w.subscriptions.get? k = some r → s.stripeSubscriptionId ≠ r.stripeSubscriptionId := by
  simp only [Stmt.exec] at h
  split at h
  · cases h
  · rename_i hany
    have hnone := Table.any_eq_false.mp (Bool.not_eq_true _ ▸ hany)
    split at h
    · cases h
    · split at h <;> cases h
      exact ⟨rfl, fun k r hk => by simpa using hnone k r hk⟩

theorem subscriptionCreate_taken {s : Subscription} {w : World}
    (h : (Stmt.subscriptionCreate s).exec w = .error (.prisma .P2002)) :
    ∃ k r, w.subscriptions.get? k = some r ∧ r.stripeSubscriptionId = s.stripeSubscriptionId := by
  simp only [Stmt.exec] at h
  split at h
  · rename_i hany
    obtain ⟨k, r, hk, hr⟩ := Table.any_eq_true.mp hany
    exact ⟨k, r, hk, (beq_iff_eq.mp hr).symm⟩
  · split at h
    · cases h
    · split at h <;> cases h

theorem upsertSubscription_failsFlat (owner : Owner) (planId : Id) (stripeSub : StripeSub)
    (created : Option Nat) (w : World) :
    (upsertSubscription owner planId stripeSub created).FailsFlat Stmt.exec Raised
      quietSubscriptions w := by
  unfold upsertSubscription
  simp only [Prog.bind_eq, Prog.tryCatch_eq]
  refine failsFlat_query_bind ?_
  split
  · trivial
  · refine failsFlat_query_bind ?_
    unfold send
    rw [Prog.failsFlat_send_bind]
    split
    · rename_i w' hexec
      by_cases hany : w.subscriptions.any (fun _ r =>
          subscriptionFresh stripeSub.id (eventStamp created w.now) r) = true
      · rw [hany]
        exact .inl trivial
      · rw [Bool.not_eq_true] at hany
        rw [subscriptionApply_stale hany] at hexec
        cases hexec
        rw [hany]
        refine .inr ⟨rfl, ?_⟩
        simp only [Bool.false_eq_true, if_false, execute, Prog.send, Prog.tryCatch, Prog.FailsFlat]
        refine ⟨fun e he => ⟨e, by simp [show e ≠ .prisma .P2002 from he]⟩, ?_⟩
        split
        · exact .inl trivial
        · split <;> trivial
    · trivial

theorem handleEvent_failsFlat (event : StripeEvent) (w : World) :
    (handleEvent event).FailsFlat Stmt.exec Raised quietSubscriptions w := by
  unfold handleEvent
  split
  · unfold handleCheckoutCompleted
    split
    · simp only [Prog.bind_eq, retrieveSubscription, Prog.bind_assoc]
      refine failsFlat_query_bind ?_
      split
      · trivial
      · exact upsertSubscription_failsFlat _ _ _ _ w
    · trivial
  · unfold handleSubscriptionUpdated
    split
    · trivial
    · exact upsertSubscription_failsFlat _ _ _ _ w
  · unfold handleSubscriptionUpdated
    split
    · trivial
    · exact upsertSubscription_failsFlat _ _ _ _ w
  · unfold handleSubscriptionDeleted
    simp only [Prog.bind_eq]
    refine failsFlat_query_bind (failsFlat_query_bind ?_)
    exact ⟨fun e _ => ⟨e, rfl⟩, .inl trivial⟩
  · trivial

/-- A row exists, and every row the event may overwrite already is what it would write. -/
def UpToDate (owner : Owner) (planId : Id) (stripeSub : StripeSub) (created : Option Nat)
    (w : World) : Prop :=
  (∃ k r, w.subscriptions.get? k = some r ∧ r.stripeSubscriptionId = stripeSub.id) ∧
    ∀ k r, w.subscriptions.get? k = some r →
      subscriptionFresh stripeSub.id (eventStamp created w.now) r = true →
      r = { subscriptionData owner planId stripeSub (eventStamp created w.now) with
        createdAt := r.createdAt }

/-- Without metadata or with an unknown plan the event is skipped. -/
def UpsertSkips (metadata : Metadata) (stripeSub : StripeSub) (created : Option Nat) (w : World) :
    Prop :=
  match metadata.target with
  | none => True
  | some (owner, planId) => w.plans.get? planId = none ∨ UpToDate owner planId stripeSub created w

/-- The event has nothing to change: the code does not handle or deliberately skips it,
the row is newer, or it already is as the event would leave it. -/
def NothingToWrite (event : StripeEvent) (w : World) : Prop :=
  match event.body with
  | .checkoutSessionCompleted session =>
    match session.subscription.bind w.stripe.get? with
    | none => True
    | some stripeSub => UpsertSkips session.metadata stripeSub event.created w
  | .subscriptionCreated stripeSub | .subscriptionUpdated stripeSub =>
    UpsertSkips stripeSub.metadata stripeSub event.created w
  | .subscriptionDeleted stripeSub => ∀ k r, w.subscriptions.get? k = some r →
      r.stripeSubscriptionId = stripeSub.id → r.status = .canceled ∧ r.canceledAt = some w.now
  | .unhandled _ => True

theorem upsertSubscription_quiet_iff (owner : Owner) (planId : Id) (stripeSub : StripeSub)
    (created : Option Nat) {w : World}
    (hfresh : ∀ k r, w.subscriptions.get? k = some r → k < w.nonce) :
    (upsertSubscription owner planId stripeSub created).Ends Stmt.exec (fun res w' => res = .ok () →
      (quietSubscriptions w w' ↔
        w.plans.get? planId = none ∨ UpToDate owner planId stripeSub created w)) w := by
  unfold upsertSubscription
  simp only [Prog.bind_eq, ends_query_bind]
  cases hplan : w.plans.get? planId with
  | none => exact fun _ => ⟨fun _ => .inl rfl, fun _ => rfl⟩
  | some plan =>
    simp only [Option.isNone_some, Bool.false_eq_true, if_false, reduceCtorEq, false_or,
      ends_date_bind, ends_send_bind]
    by_cases hany : w.subscriptions.any (fun _ r =>
        subscriptionFresh stripeSub.id (eventStamp created w.now) r) = true
    · rw [hany]
      split
      · rename_i w' hexec
        simp only [if_true, Prog.pure_eq, Prog.ends_ret]
        intro _
        unfold quietSubscriptions UpToDate
        rw [subscriptionApply_fresh hexec hany, Table.updateWhere_eq_self]
        obtain ⟨k, r, hk, hr⟩ := Table.any_eq_true.mp hany
        simp only [subscriptionFresh, Bool.and_eq_true, beq_iff_eq] at hr
        exact ⟨fun h => ⟨⟨k, r, hk, hr.1⟩, fun k' r' hk' hr' => (h k' r' hk' hr').symm⟩,
          fun h k' r' hk' hr' => (h.2 k' r' hk' hr').symm⟩
      · intro h
        cases h
    · rw [Bool.not_eq_true] at hany
      rw [subscriptionApply_stale hany, hany]
      have hstale : ∀ k r, w.subscriptions.get? k = some r →
          subscriptionFresh stripeSub.id (eventStamp created w.now) r = false :=
            Table.any_eq_false.mp hany
      simp only [Bool.false_eq_true, if_false, Prog.tryCatch_eq, Prog.ends_tryCatch, execute,
        Prog.ends_send]
      split
      · rename_i w' hexec
        intro _
        obtain ⟨hw', hnone⟩ := subscriptionCreate_ok hexec
        refine ⟨fun h => ?_, fun h => ?_⟩
        · have hfree : w.subscriptions.get? w.nonce = none :=
            Table.get?_of_bound hfresh (Nat.le_refl _)
          have hnew := Table.get?_insert_self { subscriptionData owner planId stripeSub
            (eventStamp created w.now) with createdAt := w.now } hfree
          rw [← hw', h, hfree] at hnew
          cases hnew
        · obtain ⟨⟨k, r, hk, hr⟩, _⟩ := h
          exact absurd hr.symm (hnone k r hk)
      · rename_i e hexec
        split
        · rename_i he
          subst he
          intro _
          refine ⟨fun _ => ⟨subscriptionCreate_taken hexec, fun k r hk hr => ?_⟩, fun _ => rfl⟩
          rw [hstale k r hk] at hr
          cases hr
        · intro h
          cases h

/-- A clean processing leaves the subscriptions alone exactly when there is nothing to
write. -/
theorem handleEvent_quiet_iff (event : StripeEvent) {w : World}
    (hfresh : ∀ k r, w.subscriptions.get? k = some r → k < w.nonce) :
    (handleEvent event).Ends Stmt.exec (fun res w' => res = .ok () →
      (quietSubscriptions w w' ↔ NothingToWrite event w)) w := by
  have hskips : ∀ stripeSub : StripeSub,
    (handleSubscriptionUpdated stripeSub event.created).Ends Stmt.exec
      (fun res w' => res = .ok () → (quietSubscriptions w w' ↔
        UpsertSkips stripeSub.metadata stripeSub event.created w)) w := by
    intro stripeSub
    unfold handleSubscriptionUpdated UpsertSkips
    cases stripeSub.metadata.target with
    | none => exact fun _ => ⟨fun _ => trivial, fun _ => rfl⟩
    | some target =>
      exact upsertSubscription_quiet_iff target.1 target.2 stripeSub event.created hfresh
  unfold handleEvent NothingToWrite
  cases hbody : event.body with
  | checkoutSessionCompleted session =>
    simp only [handleCheckoutCompleted]
    cases htarget : session.metadata.target with
    | none =>
      refine fun _ => ⟨fun _ => ?_, fun _ => rfl⟩
      split
      · trivial
      · rw [UpsertSkips, htarget]
        trivial
    | some target =>
      cases session.subscription with
      | none => exact fun _ => ⟨fun _ => trivial, fun _ => rfl⟩
      | some id =>
        simp only [Prog.bind_eq, retrieveSubscription, Prog.bind_assoc, ends_query_bind,
          Option.bind_some]
        cases w.stripe.get? id with
        | none =>
          intro h
          cases h
        | some stripeSub =>
          simp only [UpsertSkips, htarget]
          exact upsertSubscription_quiet_iff target.1 target.2 stripeSub event.created hfresh
  | subscriptionCreated stripeSub => exact hskips stripeSub
  | subscriptionUpdated stripeSub => exact hskips stripeSub
  | subscriptionDeleted stripeSub =>
    simp only [handleSubscriptionDeleted, Prog.bind_eq, ends_query_bind, ends_date_bind, execute,
      Prog.ends_send, Stmt.exec]
    intro _
    unfold quietSubscriptions
    rw [Table.updateWhere_eq_self]
    refine forall_congr' fun k => forall_congr' fun r => imp_congr_right fun hk => ?_
    rw [beq_iff_eq]
    refine imp_congr_right fun hr => ?_
    cases r
    simp [eq_comm]
  | unhandled type => exact fun _ => ⟨fun _ => trivial, fun _ => rfl⟩

end Handlers

section Deliveries

variable {e : SignedEvent} {w : World}

theorem SignedEvent.handle_eq (e : SignedEvent) : e.handle = processEvent e.event := by
  simp [SignedEvent.handle, handleWebhook, e.configured.1, e.configured.2, e.signed]

theorem processEvent_eq (event : StripeEvent) :
    processEvent event = .stmt (.webhookEventCreate event.id event.type)
      (fun _ => (handleEvent event).bind (fun _ => .ret { received := true, type := event.type }))
      (fun err => if err = .prisma .P2002 then .ret { received := true, type := event.type }
        else .throw err) := by
  unfold processEvent recordEvent
  simp only [Prog.bind_eq, Prog.tryCatch_eq, send, Prog.send, Prog.tryCatch, Prog.stmt_bind]
  congr 1
  funext err
  split <;> rfl

def recorded (event : StripeEvent) (w : World) : World :=
  { w with processedWebhookEvents :=
      w.processedWebhookEvents.insert event.id { type := event.type, createdAt := w.now } }

theorem exec_webhookEventCreate (event : StripeEvent)
    (hnew : w.processedWebhookEvents.get? event.id = none) :
    (Stmt.webhookEventCreate event.id event.type).exec w = .ok (recorded event w) := by
  simp [Stmt.exec, hnew, recorded]

theorem runFaulty_unrecorded {plan : List (Option Err)} (hplan : ∀ e, some e ∈ plan → Raised e)
    (hhead : plan.head?.join.isSome = true) (event : StripeEvent) (w : World) :
    ((processEvent event).runFaulty Stmt.exec plan w).2 = w := by
  obtain ⟨err, herr⟩ := Option.isSome_iff_exists.mp hhead
  have hraised := hplan err (List.mem_of_head? (Option.join_eq_some_iff.mp herr))
  rw [processEvent_eq, Prog.runFaulty, herr]
  simp [show err ≠ .prisma .P2002 from hraised, Prog.runFaulty]

theorem runFaulty_recorded {plan : List (Option Err)} (hhead : ¬ plan.head?.join.isSome = true)
    (event : StripeEvent) (hnew : w.processedWebhookEvents.get? event.id = none) :
    ((processEvent event).runFaulty Stmt.exec plan w).2 =
      ((handleEvent event).runFaulty Stmt.exec plan.tail (recorded event w)).2 := by
  rw [Bool.not_eq_true, Option.isSome_eq_false_iff, Option.isNone_iff_eq_none] at hhead
  rw [processEvent_eq, Prog.runFaulty, hhead, exec_webhookEventCreate event hnew]
  exact Prog.runFaulty_map _ _ _ _

theorem runFaulty_seen (plan : List (Option Err)) (event : StripeEvent)
    (hseen : (w.processedWebhookEvents.get? event.id).isSome = true) :
    ((processEvent event).runFaulty Stmt.exec plan w).2 = w := by
  rw [processEvent_eq, Prog.runFaulty]
  split
  · split <;> rfl
  · simp [Stmt.exec, hseen, Prog.runFaulty]

theorem recorded_seen (event : StripeEvent) (hnew : w.processedWebhookEvents.get? event.id = none)
    (plan : List (Option Err)) :
    (((handleEvent event).runFaulty Stmt.exec plan (recorded event w)).2.processedWebhookEvents.get?
      event.id).isSome = true := by
  have hstep : ∀ (l : Stmt) (s s' : World), WritesNoLedger l → l.exec s = .ok s' →
      keepsLedger s s' := by
    intro l s s' hl hexec
    rw [keepsLedger, (exec_effect hexec).processedWebhookEvents]
    unfold Stmt.processedWebhookEventsAfter
    split
    · rename_i id type
      exact absurd rfl (hl id type)
    · rfl
  have hsame : keepsLedger (recorded event w)
      ((handleEvent event).runFaulty Stmt.exec plan (recorded event w)).2 :=
    (handleEvent_keepsLedger event).runFaulty keepsLedger.refl (fun _ _ _ => .trans) hstep plan _
  rw [hsame, recorded, Table.get?_insert_self _ hnew]
  rfl

/-- Once an event is in the ledger, its deliveries change nothing but the clock. -/
theorem attemptAll_seen (as : List Attempt)
    (hseen : (w.processedWebhookEvents.get? e.event.id).isSome = true) :
    (attemptAll e w as).subscriptions = w.subscriptions := by
  induction as generalizing w with
  | nil => rfl
  | cons a as ih =>
    have hstep : attempt e w a = { w with now := w.now + a.wait } := by
      rw [attempt, e.handle_eq, runFaulty_seen (w := { w with now := w.now + a.wait }) _ _ hseen]
    rw [attemptAll, List.foldl_cons, hstep]
    exact ih (w := { w with now := w.now + a.wait }) hseen

theorem attemptAll_subscriptions (as : List Attempt)
    (hraised : ∀ a ∈ as, ∀ err, some err ∈ a.failures → Raised err)
    (hnew : w.processedWebhookEvents.get? e.event.id = none) :
    (attemptAll e w as).subscriptions =
      match firstRecorded w.now as with
      | none => w.subscriptions
      | some (t, failures) =>
        ((handleEvent e.event).runFaulty Stmt.exec failures.tail
          (recorded e.event { w with now := t })).2.subscriptions := by
  induction as generalizing w with
  | nil => rfl
  | cons a as ih =>
    simp only [attemptAll, List.foldl_cons, firstRecorded]
    have hrest : ∀ a' ∈ as, ∀ err, some err ∈ a'.failures → Raised err :=
      fun a' ha' => hraised a' (by simp [ha'])
    by_cases hhead : a.failures.head?.join.isSome = true
    · have hstep : attempt e w a = { w with now := w.now + a.wait } := by
        rw [attempt, e.handle_eq, runFaulty_unrecorded (hraised a (by simp)) hhead]
      rw [if_pos hhead, hstep]
      exact ih (w := { w with now := w.now + a.wait }) hrest hnew
    · have hstep : attempt e w a = ((handleEvent e.event).runFaulty Stmt.exec a.failures.tail
          (recorded e.event { w with now := w.now + a.wait })).2 := by
        rw [attempt, e.handle_eq, runFaulty_recorded (w := { w with now := w.now + a.wait }) hhead
          _ hnew]
      rw [if_neg hhead, hstep]
      exact attemptAll_seen as (recorded_seen (w := { w with now := w.now + a.wait }) _ hnew _)

theorem handle_runs (e : SignedEvent) (hnew : w.processedWebhookEvents.get? e.event.id = none) :
    (e.handle.runs w).2 = ((handleEvent e.event).run Stmt.exec (recorded e.event w)).2 ∧
      ∀ reply, (e.handle.runs w).1 = .ok reply →
        ((handleEvent e.event).run Stmt.exec (recorded e.event w)).1 = .ok () := by
  rw [e.handle_eq, Req.runs, processEvent_eq, Prog.run_stmt, exec_webhookEventCreate _ hnew]
  simp only [Prog.run_bind]
  rcases hrun : (handleEvent e.event).run Stmt.exec (recorded e.event w) with ⟨res, w'⟩
  cases res with
  | ok _ => exact ⟨rfl, fun _ _ => rfl⟩
  | error err => exact ⟨rfl, fun _ h => nomatch h⟩

theorem firstRecorded_mem {now t : Time} {as : List Attempt} {failures : List (Option Err)}
    (h : firstRecorded now as = some (t, failures)) :
    t ∈ instants now as ∧ failures.head?.join = none ∧ ∃ a ∈ as, a.failures = failures := by
  induction as generalizing now with
  | nil => cases h
  | cons a as ih =>
    simp only [firstRecorded] at h
    split at h
    · obtain ⟨ht, hhead, a', ha', hf⟩ := ih h
      exact ⟨by simp [instants, ht], hhead, a', by simp [ha'], hf⟩
    · rename_i hhead
      cases h
      exact ⟨by simp [instants], by simpa using hhead, a, by simp, rfl⟩

theorem exists_firstRecorded (now : Time) {as : List Attempt}
    (h : ∃ a ∈ as, ∀ f ∈ a.failures, f = none) :
    ∃ t failures, firstRecorded now as = some (t, failures) := by
  induction as generalizing now with
  | nil => simp at h
  | cons a as ih =>
    simp only [firstRecorded]
    split
    · rename_i hhead
      refine ih _ ?_
      obtain ⟨a', ha', hclean⟩ := h
      rcases List.mem_cons.mp ha' with rfl | hrest
      · obtain ⟨err, herr⟩ := Option.isSome_iff_exists.mp hhead
        have := hclean _ (List.mem_of_head? (Option.join_eq_some_iff.mp herr))
        cases this
      · exact ⟨a', hrest, hclean⟩
    · exact ⟨_, _, rfl⟩

end Deliveries

/-- The subscriptions after the deliveries are those of one successful processing, at
the instant of one of them. -/
def AsOnce (e : SignedEvent) (w : World) (as : List Attempt) : Prop :=
  ∃ t ∈ instants w.now as, (attemptAll e w as).subscriptions =
    (e.handle.runs { w with now := t }).2.subscriptions

/-- The first delivery that gets past the ledger insert meets no failure after it. -/
def FirstRecordedSpared (e : SignedEvent) (w : World) (as : List Attempt) : Prop :=
  ∃ t failures, firstRecorded w.now as = some (t, failures) ∧
    (handleEvent e.event).Spared Stmt.exec failures.tail (recorded e.event { w with now := t })

/-- An event that can be processed, delivered under any failures and at least once under
none, leaves the subscriptions of one processing exactly when the first delivery that
gets past the ledger insert is spared, or there was nothing to write at all. -/
theorem redelivery_recovers_iff (e : SignedEvent) {w : World} {as : List Attempt}
    (hraised : ∀ a ∈ as, ∀ err, some err ∈ a.failures → Raised err)
    (hclean : ∃ a ∈ as, ∀ f ∈ a.failures, f = none)
    (hnew : w.processedWebhookEvents.get? e.event.id = none)
    (hfresh : ∀ k r, w.subscriptions.get? k = some r → k < w.nonce)
    (hprocessable : ∀ t ∈ instants w.now as, ∃ reply,
      (e.handle.runs { w with now := t }).1 = .ok reply) :
    AsOnce e w as ↔
      FirstRecordedSpared e w as ∨ ∃ t ∈ instants w.now as,
      NothingToWrite e.event { w with now := t } := by
  obtain ⟨t, failures, hfirst⟩ := exists_firstRecorded w.now hclean
  obtain ⟨ht, _, a, ha, rfl⟩ := firstRecorded_mem hfirst
  have hfinal := attemptAll_subscriptions as hraised hnew
  rw [hfirst] at hfinal
  simp only [] at hfinal
  -- one processing at an instant leaves the table alone exactly when nothing is to be written
  have hquiet : ∀ t' ∈ instants w.now as,
      ((e.handle.runs { w with now := t' }).2.subscriptions = w.subscriptions ↔
        NothingToWrite e.event { w with now := t' }) := by
    intro t' ht'
    obtain ⟨hstore, hok⟩ := handle_runs (w := { w with now := t' }) e hnew
    obtain ⟨reply, hreply⟩ := hprocessable t' ht'
    rw [hstore]
    exact handleEvent_quiet_iff e.event (w := recorded e.event { w with now := t' }) hfresh
      (hok reply hreply)
  by_cases hspared : (handleEvent e.event).Spared Stmt.exec a.failures.tail
      (recorded e.event { w with now := t })
  · refine iff_of_true ⟨t, ht, ?_⟩ (.inl ⟨t, a.failures, hfirst, hspared⟩)
    rw [hfinal, Prog.runFaulty_spared hspared, (handle_runs (w := { w with now := t }) e hnew).1]
  · have hflat := (handleEvent_failsFlat e.event (recorded e.event { w with now := t })).hit
      quietSubscriptions.refl (fun _ _ _ => .trans)
      (fun err herr => hraised a ha err (List.mem_of_mem_tail herr)) hspared
    have hunchanged : (attemptAll e w as).subscriptions = w.subscriptions := hfinal.trans hflat
    constructor
    · rintro ⟨t', ht', heq⟩
      exact .inr ⟨t', ht', (hquiet t' ht').mp (heq.symm.trans hunchanged)⟩
    · rintro (⟨t', failures', hfirst', hspared'⟩ | ⟨t', ht', hnothing⟩)
      · rw [hfirst] at hfirst'
        cases hfirst'
        exact absurd hspared' hspared
      · exact ⟨t', ht', hunchanged.trans ((hquiet t' ht').mpr hnothing).symm⟩

section Sample

def checkoutEvent : StripeEvent where
  id := 11
  created := some 1
  body := .checkoutSessionCompleted
    { id := 12, subscription := some 7, metadata := { userId := some 1, planId := some 2 } }

def checkout : SignedEvent where
  env := { sampleEnv with constructEvent := fun _ _ => .ok checkoutEvent }
  rawBody := ""
  signature := ""
  event := checkoutEvent
  configured := ⟨rfl, rfl⟩
  signed := rfl

def checkoutWorld : World where
  users := (∅ : Table User).insert 1 { email := "a@x.io" }
  plans := (∅ : Table Plan).insert 2 { name := "Pro", code := "pro", stripePriceId := 3 }
  stripe := (∅ : Table StripeSub).insert 7 { id := 7, customer := 8, status := .active }
  nonce := 20

theorem checkout_processable (t : Time) :
    ∃ reply, (checkout.handle.runs { checkoutWorld with now := t }).1 = .ok reply :=
  ⟨{ received := true, type := "checkout.session.completed" }, rfl⟩

/-- A failed ledger insert is made good by the next delivery. -/
theorem redelivery_recovers_iff_insert_failed :
    AsOnce checkout checkoutWorld [⟨0, [some (.outage "timeout")]⟩, ⟨1, []⟩] :=
  (redelivery_recovers_iff checkout (by simp [Raised]) ⟨⟨1, []⟩, by simp, by simp⟩ rfl
    (fun k r h => by cases h) (fun t _ => checkout_processable t)).mpr
      (.inl ⟨1, [], rfl, Prog.spared_nil _ _⟩)

/-- The insert goes through and the retrieve call times out: the redelivery is dropped as
a duplicate, and the subscription is never created. -/
theorem failed_retrieve_loses_event :
    (∀ t, ∃ reply, (checkout.handle.runs { checkoutWorld with now := t }).1 = .ok reply) ∧
      ¬ AsOnce checkout checkoutWorld [⟨0, [none, some (.outage "timeout")]⟩, ⟨1, []⟩] := by
  refine ⟨checkout_processable, ?_⟩
  rintro ⟨t, ht, heq⟩
  have hrows := congrArg (fun s : Table Subscription => s.rows.length) heq
  have hcases : t = 0 ∨ t = 1 := by simpa [instants, checkoutWorld] using ht
  rcases hcases with rfl | rfl
  · exact absurd hrows (by decide)
  · exact absurd hrows (by decide)

end Sample

end SaasBackend
