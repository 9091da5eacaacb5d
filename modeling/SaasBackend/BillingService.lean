import SaasBackend.RequestGuards
import SaasBackend.StatementEffects

/-! The webhook half of src/modules/billing/billing.service.js: the idempotency ledger,
the three handlers and the ordering guard; and the two cancellations. -/

set_option autoImplicit false

namespace SaasBackend
open Keyed Handler

def mapStripeStatus : StripeStatus → SubscriptionStatus
  | .active => .active
  | .trialing => .trialing
  | .pastDue => .pastDue
  | .canceled => .canceled
  | .incomplete => .incomplete
  | .incompleteExpired => .incompleteExpired
  | .unpaid => .unpaid
  | .other _ => .incomplete

/-- `x ? new Date(x * 1000) : null` -/
def dateOfSeconds (seconds : Option Nat) : Option Time :=
  (seconds.filter (· ≠ 0)).map (· * 1000)

/-- `{ userId }` or `{ organizationId }` -/
structure Owner where
  userId : Option Id
  organizationId : Option Id
  deriving DecidableEq, Repr

/-- The owner and plan of an event's metadata; missing either, the event is skipped. -/
def Metadata.target (m : Metadata) : Option (Owner × Id) :=
  match m.planId with
  | none => none
  | some planId =>
    if m.userId.isNone && m.organizationId.isNone then none
    else some (⟨m.userId, m.organizationId⟩, planId)

def subscriptionData (owner : Owner) (planId : Id) (stripeSub : StripeSub) (stamp : Time) :
    Subscription where
  userId := owner.userId
  organizationId := owner.organizationId
  planId := planId
  stripeSubscriptionId := stripeSub.id
  stripeCustomerId := stripeSub.customer
  status := mapStripeStatus stripeSub.status
  trialEndsAt := dateOfSeconds stripeSub.trialEnd
  currentPeriodStart := dateOfSeconds
    (stripeSub.currentPeriodStart <|> stripeSub.items.head?.bind (·.currentPeriodStart))
  currentPeriodEnd := dateOfSeconds
    (stripeSub.currentPeriodEnd <|> stripeSub.items.head?.bind (·.currentPeriodEnd))
  canceledAt := dateOfSeconds stripeSub.canceledAt
  stripeEventCreatedAt := some stamp

/-- `eventCreated ? new Date(eventCreated * 1000) : new Date()` -/
def eventStamp (created : Option Nat) (now : Time) : Time := (dateOfSeconds created).getD now

/-- The rows the conditional updateMany of `upsertSubscription` matches. -/
def subscriptionFresh (stripeSubscriptionId : Id) (stamp : Time) (r : Subscription) : Bool :=
  r.stripeSubscriptionId == stripeSubscriptionId &&
    r.stripeEventCreatedAt.all (fun t => decide (t ≤ stamp))

def upsertSubscription (owner : Owner) (planId : Id) (stripeSub : StripeSub)
    (created : Option Nat) :
    Req Unit := do
  let plan ← query (·.plans.get? planId)
  if plan.isNone then return ()
  else do
    let now ← date
    let data := subscriptionData owner planId stripeSub (eventStamp created now)
    let updated ← send (.subscriptionApply data (eventStamp created now))
      (fun w => w.subscriptions.any
        (fun _ r => subscriptionFresh stripeSub.id (eventStamp created now) r))
    if updated then return ()
    else
      tryCatch (execute (.subscriptionCreate data))
        (fun err => if err = .prisma .P2002 then return () else throw err)

def handleSubscriptionUpdated (stripeSub : StripeSub) (created : Option Nat) : Req Unit :=
  match stripeSub.metadata.target with
  | none => return ()
  | some (owner, planId) => upsertSubscription owner planId stripeSub created

/-- `stripe.subscriptions.retrieve` -/
def retrieveSubscription (id : Id) : Req StripeSub := do
  let found ← query (·.stripe.get? id)
  match found with
  | none => throw (.outage "resource_missing")
  | some stripeSub => return stripeSub

def handleCheckoutCompleted (session : CheckoutSession) (created : Option Nat) : Req Unit :=
  match session.metadata.target, session.subscription with
  | some (owner, planId), some stripeSubscriptionId => do
    let stripeSub ← retrieveSubscription stripeSubscriptionId
    upsertSubscription owner planId stripeSub created
  | _, _ => return ()

def handleSubscriptionDeleted (stripeSub : StripeSub) : Req Unit := do
  -- the owner, read for the audit log
  let _ ← query (fun w =>
    w.subscriptions.find? (fun _ r => r.stripeSubscriptionId == stripeSub.id))
  let now ← date
  execute (.subscriptionDeleted stripeSub.id now)

def handleEvent (event : StripeEvent) : Req Unit :=
  match event.body with
  | .checkoutSessionCompleted session => handleCheckoutCompleted session event.created
  | .subscriptionCreated stripeSub | .subscriptionUpdated stripeSub =>
    handleSubscriptionUpdated stripeSub event.created
  | .subscriptionDeleted stripeSub => handleSubscriptionDeleted stripeSub
  | .unhandled _ => return ()

structure WebhookReply where
  received : Bool
  type : String
  deriving DecidableEq, Repr

/-- The insert into the idempotency ledger; whether the event is new. -/
def recordEvent (event : StripeEvent) : Req Bool :=
  tryCatch (send (.webhookEventCreate event.id event.type) (fun _ => true))
    (fun err => if err = .prisma .P2002 then return false else throw err)

/-- `handleWebhook` from the ledger on, for an event whose signature has been checked. -/
def processEvent (event : StripeEvent) : Req WebhookReply := do
  let new ← recordEvent event
  if !new then return { received := true, type := event.type }
  else do
    handleEvent event
    return { received := true, type := event.type }

def handleWebhook (env : Env) (rawBody : String) (signature : Option String) : Req WebhookReply :=
  match signature with
  | none => throw (httpError "errors.missingStripeSignature" 400)
  | some signature =>
    if !env.stripeConfigured then throw (httpError "errors.stripeNotConfiguredShort" 500)
    else if !env.webhookSecretConfigured then
      throw (httpError "errors.stripeWebhookSecretNotConfigured" 500)
    else
      match env.constructEvent rawBody signature with
      | .error message =>
        throw (httpError "errors.webhookSignatureFailed" 400 [("message", .text message)])
      | .ok event => processEvent event

/-- subscriptionSelect -/
structure SubscriptionView where
  id : Id
  status : SubscriptionStatus
  trialEndsAt : Option Time
  currentPeriodStart : Option Time
  currentPeriodEnd : Option Time
  canceledAt : Option Time
  createdAt : Time
  plan : Option Plan
  deriving DecidableEq, Repr

def World.subscriptionView (w : World) (id : Id) (s : Subscription) : SubscriptionView :=
  ⟨id, s.status, s.trialEndsAt, s.currentPeriodStart, s.currentPeriodEnd, s.canceledAt, s.createdAt,
    w.plans.get? s.planId⟩

def World.cancelable (w : World) (first : NewestFirst) (owned : Subscription → Bool) :
    Option (Id × Subscription) :=
  first.pick (w.subscriptions.filter (fun _ s => owned s && [.active, .trialing].contains s.status))

/-- The two cancellations differ in whose subscription they look for. -/
def cancelOwned (env : Env) (first : NewestFirst) (owned : Subscription → Bool) :
    Req SubscriptionView := do
  let found ← query (·.cancelable first owned)
  match found with
  | none => throw (httpError "errors.noActiveSubscription" 404)
  | some (id, subscription) =>
    if !env.stripeConfigured then throw (httpError "errors.stripeNotConfigured" 500)
    else do
      execute (.stripeCancel subscription.stripeSubscriptionId)
      let now ← date
      let updated ← send (.subscriptionCancel [id] now)
        (fun w => (w.subscriptions.get? id).map (fun s =>
        w.subscriptionView id { s with status := .canceled, canceledAt := some now }))
      match updated with
      | none => throw (.prisma .P2025)
      | some updated => return updated

def cancelSubscription (env : Env) (first : NewestFirst) (userId : Id) : Req SubscriptionView :=
  cancelOwned env first (fun s => s.userId == some userId)

def cancelOrgSubscription (env : Env) (first : NewestFirst) (organizationId : Id) :
    Req SubscriptionView :=
  cancelOwned env first (fun s => s.organizationId == some organizationId)

theorem ends_recordEvent_bind {β : Type} {post : Except Err β → World → Prop} {w : World}
    {event : StripeEvent} {k : Bool → Req β} :
    ((recordEvent event).bind k).Ends Stmt.exec post w ↔
      if (w.processedWebhookEvents.get? event.id).isSome then (k false).Ends Stmt.exec post w
      else (k true).Ends Stmt.exec post { w with
        processedWebhookEvents := w.processedWebhookEvents.insert event.id
          { type := event.type, createdAt := w.now } } := by
  rw [recordEvent, Prog.tryCatch_eq, ends_tryCatch_bind]
  simp only [Stmt.exec]
  by_cases h : (w.processedWebhookEvents.get? event.id).isSome = true
  · simp only [h, if_true]
    exact Iff.rfl
  · simp only [h, Bool.false_eq_true, if_false]

end SaasBackend
