import SaasBackend.OrganizationBilling

/-! Checkout and portal with Stripe beside the database: every Prisma statement and every
call to Stripe is one step. A user and an organization pay in the same way. -/

set_option autoImplicit false

namespace SaasBackend
open Keyed Handler

structure Customer where
  email : Option String
  name : Option String
  metadata : Owner

structure CheckoutParams where
  customer : Id
  price : Id
  metadata : Owner
  planId : Id
  successUrl : String
  cancelUrl : String

/-- The database and Stripe. Customers and checkout sessions are named by their place. -/
structure Billing where
  world : World
  customers : List Customer := []
  sessions : List CheckoutParams := []
  /-- how the next calls to Stripe fail, if they do -/
  failures : List (Option Err) := []
  /-- url and id of the checkout sessions, url of the portal sessions -/
  checkoutOf : Id → String × String
  portalOf : Id → String

inductive BillingStmt where
  | prisma (l : Stmt)
  | customersRetrieve (id : Id)
  | customersCreate (data : Customer)
  | checkoutSessionsCreate (params : CheckoutParams)
  | portalSessionsCreate (customer : Id) (returnUrl : String)

namespace Billing

/-- The error that the next call to Stripe ends with. -/
def failure (s : Billing) : Option Err := s.failures.head?.join

def called (s : Billing) : Billing := { s with failures := s.failures.tail }

def lookup (s : Billing) (id : Id) : CustomerLookup :=
  match s.failure with
  | some err => .failed err
  | none => if id < s.customers.length then .found else .resourceMissing

def answer {α : Type} (s : Billing) (a : α) : Except Err α :=
  match s.failure with
  | some err => .error err
  | none => .ok a

end Billing

def BillingStmt.exec : BillingStmt → Billing → Except Err Billing
  | .prisma l, s => (l.exec s.world).map (fun w => { s with world := w })
  | .customersRetrieve _, s | .portalSessionsCreate .., s => .ok s.called
  | .customersCreate data, s => .ok (if s.failure.isSome then s.called else
      { s.called with customers := s.customers ++ [data] })
  | .checkoutSessionsCreate params, s => .ok (if s.failure.isSome then s.called else
      { s.called with sessions := s.sessions ++ [params] })

abbrev BillingReq (α : Type) := Prog Billing Err BillingStmt α

namespace Checkout

def query {α : Type} (view : World → α) : BillingReq α :=
  .send (.prisma .read) (fun s => view s.world)

def execute (l : Stmt) : BillingReq Unit := .send (.prisma l) (fun _ => ())

def call {α : Type} (l : BillingStmt) (view : Billing → α) : BillingReq α := do
  let answered ← Prog.send l (fun s => s.answer (view s))
  match answered with
  | .ok a => return a
  | .error err => throw err

inductive Payer where
  | user (id : Id)
  | organization (id : Id)

/-- What a checkout reads of the payer: the stored customer, the email and the name. -/
structure PayerRow where
  stripeCustomerId : Option Id
  email : Option String
  name : Option String

namespace Payer

def row (w : World) : Payer → Option PayerRow
  | .user id => (w.users.get? id).map (fun u => ⟨u.stripeCustomerId, some u.email, u.name⟩)
  | .organization id =>
      ((w.organizations.get? id).filter (fun o => o.deletedAt.isNone)).map (fun o =>
      ⟨o.stripeCustomerId, (w.users.get? o.ownerId).map (·.email), some o.name⟩)

def notFound : Payer → Err
  | .user _ => httpError "errors.userNotFound" 404
  | .organization _ => httpError "errors.organizationNotFound" 404

def metadata : Payer → Owner
  | .user id => ⟨some id, none⟩
  | .organization id => ⟨none, some id⟩

def persist : Payer → Id → Stmt
  | .user id, customer => .userUpdate id { stripeCustomerId := some customer }
  | .organization id, customer => .organizationUpdate id { stripeCustomerId := some customer }

def stored (payer : Payer) (w : World) : Option Id := (payer.row w).bind (·.stripeCustomerId)

end Payer

def createCustomer (payer : Payer) (row : PayerRow) : BillingReq Id := do
  let id ← call (.customersCreate ⟨row.email, row.name, payer.metadata⟩) (·.customers.length)
  execute (payer.persist id)
  return id

/-- Only a customer that Stripe says is missing is created again. -/
def resolveStripeCustomerId (payer : Payer) (row : PayerRow) : BillingReq Id :=
  match row.stripeCustomerId with
  | none => createCustomer payer row
  | some id => do
    let known ← Prog.send (.customersRetrieve id) (·.lookup id)
    match known with
    | .found => return id
    | .resourceMissing => createCustomer payer row
    | .failed err => throw err

/-- The session itself; the answer is its url and its id. -/
def openSession (payer : Payer) (plan : Plan) (body : CheckoutBody) (customer : Id) :
    BillingReq (String × String) :=
  call (.checkoutSessionsCreate
      ⟨customer, plan.stripePriceId, payer.metadata, body.planId, body.successUrl, body.cancelUrl⟩)
    (fun s => s.checkoutOf s.sessions.length)

def checkoutOf (env : Env) (payer : Payer) (plan : Plan) (body : CheckoutBody) :
    BillingReq (String × String) :=
  if !env.stripeConfigured then throw (httpError "errors.stripeNotConfigured" 500)
  else do
    let found ← query payer.row
    match found with
    | none => throw payer.notFound
    | some row => do
      let customer ← resolveStripeCustomerId payer row
      openSession payer plan body customer

def checkoutFor (env : Env) (payer : Payer) (body : CheckoutBody) :
    BillingReq (String × String) := do
  let plan ← query (fun w => (w.plans.get? body.planId).filter (·.active))
  match plan with
  | none => throw (httpError "errors.planNotFound" 404)
  | some plan => checkoutOf env payer plan body

def createCheckoutSession (env : Env) (userId : Id) (body : CheckoutBody) :
    BillingReq (String × String) :=
  checkoutFor env (.user userId) body

def createOrgCheckoutSession (env : Env) (organizationId : Id) (body : CheckoutBody) :
    BillingReq (String × String) :=
  checkoutFor env (.organization organizationId) body

def portalFor (env : Env) (payer : Payer) (returnUrl : String) : BillingReq String := do
  let found ← query payer.row
  match found with
  | none => throw payer.notFound
  | some row =>
    match row.stripeCustomerId with
    | none => throw (httpError "errors.noBillingAccount" 400)
    | some customer =>
      if !env.stripeConfigured then throw (httpError "errors.stripeNotConfigured" 500)
      else call (.portalSessionsCreate customer returnUrl) (·.portalOf customer)

def createPortalSession (env : Env) (userId : Id) (returnUrl : String) : BillingReq String :=
  portalFor env (.user userId) returnUrl

def createOrgPortalSession (env : Env) (organizationId : Id)
    (returnUrl : String) : BillingReq String :=
  portalFor env (.organization organizationId) returnUrl

def api (s : Billing) : StripeApi where
  retrieveCustomer := s.lookup
  createCustomer _ := .ok s.customers.length
  createCheckout _ := .ok (s.checkoutOf s.sessions.length)
  createPortal customer _ := .ok (s.portalOf customer)

section Alone

variable {env : Env} {s : Billing}

theorem run_query_bind {α β : Type} {view : World → α} {k : α → BillingReq β} :
    ((query view).bind k).run BillingStmt.exec s = (k (view s.world)).run BillingStmt.exec s := rfl

theorem runs_query_bind {α β : Type} {view : World → α} {k : α → Req β} {w : World} :
    Req.runs ((SaasBackend.query view).bind k) w = (k (view w)).runs w := rfl

theorem run_call {α : Type} {l : BillingStmt} {view : Billing → α} {s' : Billing}
    (hs : s.failure = none) (hl : l.exec s = .ok s') :
    (call l view).run BillingStmt.exec s = (.ok (view s), s') := by
  simp only [call, Prog.bind_eq, Prog.send_bind, Prog.run_stmt, hl, Billing.answer, hs]
  rfl

theorem exec_customersCreate (hs : s.failure = none) (data : Customer) :
    (BillingStmt.customersCreate data).exec s =
      .ok { s.called with customers := s.customers ++ [data] } := by
  simp only [BillingStmt.exec, hs]
  rfl

theorem exec_checkoutSessionsCreate (hs : s.failure = none) (params : CheckoutParams) :
    (BillingStmt.checkoutSessionsCreate params).exec s =
      .ok { s.called with sessions := s.sessions ++ [params] } := by
  simp only [BillingStmt.exec, hs]
  rfl

theorem run_createCustomer (hs : s.failure = none) (payer : Payer) (row : PayerRow) :
    (createCustomer payer row).run BillingStmt.exec s =
      match (payer.persist s.customers.length).exec s.world with
      | .ok w => (.ok s.customers.length,
          { s.called with
            world := w
            customers := s.customers ++ [⟨row.email, row.name, payer.metadata⟩] })
      | .error e => (.error e, { s.called with
          customers := s.customers ++ [⟨row.email, row.name, payer.metadata⟩] }) := by
  have hworld : s.called.world = s.world := rfl
  unfold createCustomer
  simp only [Prog.bind_eq]
  rw [Prog.run_bind, run_call hs (exec_customersCreate hs _)]
  simp only [execute, Prog.send_bind, Prog.run_stmt, BillingStmt.exec, hworld]
  cases (payer.persist s.customers.length).exec s.world <;> rfl

theorem run_openSession (hs : s.failure = none) (payer : Payer) (plan : Plan) (body : CheckoutBody)
    (customer : Id) :
    ((openSession payer plan body customer).run BillingStmt.exec s).1 =
      .ok (s.checkoutOf s.sessions.length) ∧
      ((openSession payer plan body customer).run BillingStmt.exec s).2.world = s.world := by
  rw [openSession, run_call hs (exec_checkoutSessionsCreate hs _)]
  exact ⟨rfl, rfl⟩

theorem runs_execute_bind {α : Type} {l : Stmt} {k : Unit → Req α} {w : World} :
    Req.runs ((SaasBackend.execute l).bind k) w =
      match l.exec w with
      | .ok w' => (k ()).runs w'
      | .error e => (.error e, w) := by
  unfold Req.runs SaasBackend.execute
  rw [Prog.send_bind, Prog.run_stmt]
  cases l.exec w <;> rfl

theorem called_eq_self (hs : s.failures = []) : s.called = s := by
  cases s
  cases hs
  rfl

theorem create_open_alone (hs : s.failures = []) (organizationId : Id) (row : PayerRow)
    (plan : Plan) (body : CheckoutBody) :
    Req.runs ((SaasBackend.execute
        (.organizationUpdate organizationId { stripeCustomerId := some s.customers.length })).bind
        fun _ =>
          .ret (BillingReply.checkout (s.checkoutOf s.sessions.length).1
            (s.checkoutOf s.sessions.length).2)) s.world =
      ((((createCustomer (.organization organizationId) row).bind
          (openSession (.organization organizationId) plan body)).run BillingStmt.exec s).1.map
          (fun a => BillingReply.checkout a.1 a.2),
        (((createCustomer (.organization organizationId) row).bind
          (openSession (.organization organizationId) plan body)).run BillingStmt.exec
          s).2.world) := by
  have hfail : s.failure = none := by simp [Billing.failure, hs]
  have hpersist : ((Payer.organization organizationId).persist s.customers.length) =
    .organizationUpdate organizationId { stripeCustomerId := some s.customers.length } := rfl
  rw [runs_execute_bind, Prog.run_bind, run_createCustomer hfail, called_eq_self hs, hpersist]
  cases (Stmt.organizationUpdate organizationId
    { stripeCustomerId := some s.customers.length }).exec s.world with
  | error e => rfl
  | ok w =>
    obtain ⟨hanswer, hworld⟩ := run_openSession (s := { s with
      world := w
      customers := s.customers ++
      [⟨row.email, row.name, (Payer.organization organizationId).metadata⟩] }) hfail
      (.organization organizationId) plan body s.customers.length
    simp only [hanswer, hworld]
    rfl

/-- Alone, with no failure ahead, the organization's checkout is the one over a fixed Stripe. -/
theorem createOrgCheckoutSession_alone (hs : s.failures = []) (organizationId : Id)
    (body : CheckoutBody) :
    (SaasBackend.createOrgCheckoutSession env (api s) organizationId body).runs s.world =
      (((createOrgCheckoutSession env organizationId body).run BillingStmt.exec s).1.map
          (fun a => BillingReply.checkout a.1 a.2),
        ((createOrgCheckoutSession env organizationId body).run BillingStmt.exec s).2.world) := by
  have hfail : s.failure = none := by simp [Billing.failure, hs]
  unfold SaasBackend.createOrgCheckoutSession createOrgCheckoutSession checkoutFor checkoutOf
  simp only [Prog.bind_eq]
  rw [runs_query_bind, run_query_bind]
  cases (s.world.plans.get? body.planId).filter (·.active) with
  | none => rfl
  | some plan =>
    cases env.stripeConfigured with
    | false => rfl
    | true =>
      simp only [Bool.not_true, Bool.false_eq_true, if_false]
      rw [runs_query_bind, run_query_bind]
      simp only [Payer.row]
      cases (s.world.organizations.get? organizationId).filter (fun o => o.deletedAt.isNone) with
      | none => rfl
      | some org =>
        simp only [Option.map_some]
        unfold SaasBackend.resolveStripeCustomerId resolveStripeCustomerId
        cases org.stripeCustomerId with
        | none => exact create_open_alone hs organizationId _ plan body
        | some id =>
          have hlookup : s.lookup id =
              if id < s.customers.length then .found else .resourceMissing := by
            simp only [Billing.lookup, hfail]
          simp only [Prog.bind_eq, Prog.bind_assoc, api, hlookup]
          rw [Prog.send_bind, Prog.run_stmt]
          simp only [BillingStmt.exec, hlookup, called_eq_self hs]
          by_cases hknown : id < s.customers.length
          · obtain ⟨hanswer, hworld⟩ :=
              run_openSession hfail (.organization organizationId) plan body id
            simp only [if_pos hknown, Prog.pure_eq, Prog.ret_bind, hanswer, hworld]
            rfl
          · simp only [if_neg hknown]
            exact create_open_alone hs organizationId _ plan body

end Alone

end Checkout

end SaasBackend
