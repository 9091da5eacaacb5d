import SaasBackend.BillingService
import SaasBackend.OrganizationService

/-! The routes of an organization's own billing. What Stripe answers is a parameter. -/

set_option autoImplicit false

namespace SaasBackend
open Keyed Handler

inductive CustomerLookup where
  | found
  | resourceMissing
  | failed (err : Err)

structure CustomerData where
  email : Option String
  name : String
  organizationId : Id

/-- What a checkout session is created from, its metadata included. -/
structure CheckoutData where
  customer : Id
  price : Id
  organizationId : Id
  planId : Id
  successUrl : String
  cancelUrl : String

structure StripeApi where
  retrieveCustomer : Id → CustomerLookup
  createCustomer : CustomerData → Except Err Id
  /-- the url and the id of the session -/
  createCheckout : CheckoutData → Except Err (String × String)
  createPortal : Id → String → Except Err String

inductive BillingReply where
  | subscription (subscription : Option SubscriptionView)
  | checkout (url sessionId : String)
  | portal (url : String)
  deriving DecidableEq, Repr

def getOrgSubscription (first : NewestFirst) (organizationId : Id) : Req BillingReply := do
  let found ← query (fun w => (first.pick (w.subscriptions.filter (fun _ s =>
    s.organizationId == some organizationId && liveSubscriptionStatuses.contains s.status))).map
      (fun r => w.subscriptionView r.1 r.2))
  return .subscription found

/-- Only a customer that Stripe says is missing is created again. -/
def resolveStripeCustomerId (stripe : StripeApi) (existing : Option Id) (data : CustomerData)
    (persist : Id → Req Unit) : Req Id := do
  let known ← match existing with
    | none => pure none
    | some id =>
      match stripe.retrieveCustomer id with
      | .found => pure (some id)
      | .resourceMissing => pure none
      | .failed err => throw err
  match known with
  | some id => return id
  | none => do
    let id ← orThrow (stripe.createCustomer data)
    persist id
    return id

structure CheckoutBody where
  planId : Id
  successUrl : String
  cancelUrl : String

def createOrgCheckoutSession (env : Env) (stripe : StripeApi) (organizationId : Id)
    (body : CheckoutBody) :
    Req BillingReply := do
  let plan ← query (fun w => (w.plans.get? body.planId).filter (·.active))
  match plan with
  | none => throw (httpError "errors.planNotFound" 404)
  | some plan =>
    if !env.stripeConfigured then throw (httpError "errors.stripeNotConfigured" 500)
    else do
      let found ← query (fun w =>
        ((w.organizations.get? organizationId).filter (fun o => o.deletedAt.isNone)).map
        (fun o => (o, (w.users.get? o.ownerId).map (·.email))))
      match found with
      | none => throw (httpError "errors.organizationNotFound" 404)
      | some (org, ownerEmail) => do
        let customer ← resolveStripeCustomerId stripe org.stripeCustomerId
          ⟨ownerEmail, org.name, organizationId⟩
          (fun id => execute (.organizationUpdate organizationId { stripeCustomerId := some id }))
        let (url, sessionId) ← orThrow (stripe.createCheckout
          ⟨customer, plan.stripePriceId, organizationId, body.planId, body.successUrl,
            body.cancelUrl⟩)
        return .checkout url sessionId

def createOrgPortalSession (env : Env) (stripe : StripeApi) (organizationId : Id)
    (returnUrl : String) :
    Req BillingReply := do
  let found ← query (fun w =>
    (w.organizations.get? organizationId).filter (fun o => o.deletedAt.isNone))
  match found with
  | none => throw (httpError "errors.organizationNotFound" 404)
  | some org =>
    match org.stripeCustomerId with
    | none => throw (httpError "errors.noBillingAccount" 400)
    | some customer =>
      if !env.stripeConfigured then throw (httpError "errors.stripeNotConfigured" 500)
      else do
        let url ← orThrow (stripe.createPortal customer returnUrl)
        return .portal url

inductive BillingRoute where
  | getOrgSubscription (first : NewestFirst)
  | createOrgCheckout (body : CheckoutBody)
  | createOrgPortal (returnUrl : String)
  | cancelOrgSubscription (first : NewestFirst)

def BillingRoute.serve (env : Env) (stripe : StripeApi) (tenant : Tenant) : BillingRoute →
    Req BillingReply
  | .getOrgSubscription first => SaasBackend.getOrgSubscription first tenant.id
  | .createOrgCheckout body => do
    requireOrgRole [.owner, .admin] tenant
    createOrgCheckoutSession env stripe tenant.id body
  | .createOrgPortal returnUrl => do
    requireOrgRole [.owner, .admin] tenant
    createOrgPortalSession env stripe tenant.id returnUrl
  | .cancelOrgSubscription first => do
    requireOrgRole [.owner, .admin] tenant
    let subscription ← SaasBackend.cancelOrgSubscription env first tenant.id
    return .subscription (some subscription)

/-- /api/organizations/:orgId/billing -/
def BillingRoute.handle (env : Env) (stripe : StripeApi) (header : AuthHeader) (orgId : Id)
    (route : BillingRoute) :
    Req BillingReply := do
  let caller ← authenticate header
  let tenant ← requireTenant orgId caller
  route.serve env stripe tenant

end SaasBackend
