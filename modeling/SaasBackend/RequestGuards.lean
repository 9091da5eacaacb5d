import Mathlib.Data.List.MinMax
import SaasBackend.FeatureFlagService

/-! The guards of src/middleware, each the part of a route that runs before its
handler. A guard that answers the request itself throws what it answers. -/

set_option autoImplicit false

namespace SaasBackend
open Keyed Handler

/-- The Authorization header: absent or of another scheme, a token whose signature
does not verify, or a token this server signed. -/
inductive AuthHeader where
  | missing
  | malformed
  | bearer (token : AccessToken)
  deriving DecidableEq, Repr

/-- The X-API-Key header; `malformed` lacks the `sk_` prefix. -/
inductive ApiKeyHeader where
  | missing
  | malformed
  | key (rawKey : Nat)
  deriving DecidableEq, Repr

/-- `req.user`. The API-key guard leaves name, tokenVersion and emailVerified out. -/
structure Caller where
  id : Id
  name : Option String := none
  email : String
  role : Role
  tokenVersion : Option Nat := none
  emailVerified : Option Bool := none
  deriving DecidableEq, Repr

/-- `req.tenant` -/
structure Tenant where
  id : Id
  name : String
  slug : String
  ownerId : Id
  role : OrgRole
  deriving DecidableEq, Repr

/-- `req.subscription` -/
structure ActiveSubscription where
  id : Id
  status : SubscriptionStatus
  planId : Id
  planName : String
  planCode : String
  deriving DecidableEq, Repr

/-- `req.apiKey` -/
structure KeyContext where
  id : Id
  scopes : List String
  deriving DecidableEq, Repr

def authenticate (header : AuthHeader) : Req Caller := do
  match header with
  | .missing => throw (httpError "errors.noTokenProvided" 401)
  | .malformed => throw (httpError "errors.invalidOrExpiredToken" 401)
  | .bearer token => do
    let now ← date
    if token.expired now then throw (httpError "errors.invalidOrExpiredToken" 401)
    else do
      let found ← findUserById token.id
      match found with
      | none => throw (httpError "errors.userNoLongerExists" 401)
      | some user =>
        if token.tokenVersion ≠ user.tokenVersion then
          throw (httpError "errors.tokenInvalidated" 401)
        else if user.banned then throw (httpError "errors.accountBanned" 403)
        else do
          let now ← date
          if user.suspendedAt now then throw (accountSuspended user)
          else
            return { id := token.id, name := user.name, email := user.email, role := user.role
                     tokenVersion := some user.tokenVersion, emailVerified :=
                       some user.emailVerified }

def authorize (roles : List Role) (caller : Caller) : Req Unit :=
  if roles.contains caller.role then return ()
  else throw (httpError "errors.insufficientPermissions" 403)

def requireVerifiedEmail (caller : Caller) : Req Unit := do
  match caller.emailVerified with
  | some verified =>
    if verified then return ()
    else throw (httpError "errors.emailNotVerified" 403)
  | none => do
    let found ← findUserById caller.id
    if found.any (·.emailVerified) then return ()
    else throw (httpError "errors.emailNotVerified" 403)

def World.tenant (w : World) (orgId userId : Id) : Option (Tenant × Option Time) :=
  (w.membership orgId userId).bind (fun r => (w.organizations.get? orgId).map (fun o =>
    (⟨orgId, o.name, o.slug, o.ownerId, r.2.role⟩, o.deletedAt)))

def requireTenant (orgId : Id) (caller : Caller) : Req Tenant := do
  let found ← query (·.tenant orgId caller.id)
  match found with
  | some (tenant, none) => return tenant
  | _ => throw (httpError "errors.noOrgAccess" 403)

def requireTenantIncludeDeleted (orgId : Id) (caller : Caller) : Req Tenant := do
  let found ← query (·.tenant orgId caller.id)
  match found with
  | some (tenant, _) => return tenant
  | none => throw (httpError "errors.noOrgAccess" 403)

def requireOrgRole (roles : List OrgRole) (tenant : Tenant) : Req Unit :=
  if roles.contains tenant.role then return ()
  else throw (httpError "errors.insufficientOrgPermissions" 403)

/-- `orderBy: { createdAt: 'desc' }`, first row; of equally new rows the first in the table. -/
def latest (rows : List (Id × Subscription)) : Option (Id × Subscription) :=
  rows.foldl (fun best r =>
    match best with
    | none => some r
    | some b => if b.2.createdAt < r.2.createdAt then some r else some b) none

theorem latest_eq_argmax (rows : List (Id × Subscription)) :
    latest rows = rows.argmax (·.2.createdAt) := by
  unfold latest List.argmax
  congr 1
  funext best r
  cases best <;> rfl

theorem latest_mem {rows : List (Id × Subscription)} {r : Id × Subscription}
    (h : latest rows = some r) :
    r ∈ rows := List.argmax_mem (latest_eq_argmax rows ▸ h)

/-- The first row by `createdAt: 'desc'` as a database may pick it: of equally new rows, any. -/
structure NewestFirst where
  pick : List (Id × Subscription) → Option (Id × Subscription)
  mem : ∀ {rows x}, pick rows = some x → x ∈ rows
  newest : ∀ {rows x y}, pick rows = some x → y ∈ rows → y.2.createdAt ≤ x.2.createdAt
  found : ∀ {rows}, pick rows = none → rows = []

def NewestFirst.tableOrder : NewestFirst where
  pick := latest
  mem := latest_mem
  newest h hy := List.le_of_mem_argmax (f := fun x => x.2.createdAt) hy (latest_eq_argmax _ ▸ h)
  found h := List.argmax_eq_none.mp (latest_eq_argmax _ ▸ h)

def SoleNewest (rows : List (Id × Subscription)) (x : Id × Subscription) : Prop :=
  x ∈ rows ∧ ∀ y ∈ rows, y ≠ x → y.2.createdAt < x.2.createdAt

theorem NewestFirst.pick_some (first : NewestFirst) {rows : List (Id × Subscription)}
    (h : rows ≠ []) : ∃ x, first.pick rows = some x := by
  cases hpick : first.pick rows with
  | none => exact absurd (first.found hpick) h
  | some x => exact ⟨x, rfl⟩

theorem SoleNewest.pick_eq {rows : List (Id × Subscription)} {x : Id × Subscription}
    (h : SoleNewest rows x) (first : NewestFirst) : first.pick rows = some x := by
  obtain ⟨y, hy⟩ := first.pick_some (List.ne_nil_of_mem h.1)
  by_cases hne : y = x
  · rw [hy, hne]
  · exact absurd (first.newest hy h.1) (Nat.not_le.mpr (h.2 y (first.mem hy) hne))

def World.rowsOf (w : World) (owned : Subscription → Bool) (statuses : List SubscriptionStatus) :
    List (Id × Subscription) :=
  w.subscriptions.filter (fun _ s => owned s && statuses.contains s.status)

/-- The newest ACTIVE or TRIALING subscription among those an owner test selects. -/
def World.activeSubscription (w : World) (first : NewestFirst) (owned : Subscription → Bool) :
    Option ActiveSubscription :=
  (first.pick (w.subscriptions.filter
    (fun _ s => owned s && [.active, .trialing].contains s.status))).bind
    (fun r => (w.plans.get? r.2.planId).map (fun p =>
      ⟨r.1, r.2.status, r.2.planId, p.name, p.code⟩))

/-- The two subscription gates differ in whose subscription they look for. -/
def subscriptionGate (first : NewestFirst) (owned : Subscription → Bool) :
    Req ActiveSubscription := do
  let found ← query (·.activeSubscription first owned)
  match found with
  | some subscription => return subscription
  | none => throw (httpError "errors.activeSubscriptionRequired" 402)

def requireSubscription (first : NewestFirst) (caller : Caller) : Req ActiveSubscription :=
  subscriptionGate first (fun s => s.userId == some caller.id)

def requireOrgSubscription (first : NewestFirst) (tenant : Tenant) : Req ActiveSubscription :=
  subscriptionGate first (fun s => s.organizationId == some tenant.id)

def requirePlan (planCodes : List String) (subscription : ActiveSubscription) : Req Unit :=
  if planCodes.contains subscription.planCode then return ()
  else throw (httpError "errors.planRequired" 403
    [("planNames", .text (", ".intercalate planCodes))])

def requireFeatureFlag (env : Env) (key : String) (tenant : Tenant)
    (subscription : Option ActiveSubscription) : Req FlagResult := do
  let result ← evaluateFlag env key (some tenant.id)
    ((subscription.map (·.planCode)).filter (· ≠ ""))
  if result.enabled then return result
  else throw (httpError "errors.featureNotEnabled" 403 [("key", .text key)])

def lastUsedRefreshMs : Nat := 60 * 1000

/-- `lastUsedAt` is refreshed without waiting, and whatever that fails with is dropped. -/
def touchApiKey (id : Id) (lastUsedAt : Option Time) : Req Unit := do
  let now ← date
  when (lastUsedAt.all (fun t => decide (t + lastUsedRefreshMs ≤ now)))
    (tryCatch (execute (.apiKeyTouch id now)) (fun _ => return ()))

def World.keyHolder (w : World) (rawKey : Nat) : Option (Id × ApiKey × User) :=
  (w.apiKeys.find? (fun _ k => k.keyHash == hashToken rawKey && k.deletedAt.isNone)).bind
    (fun r => (w.users.get? r.2.userId).map (fun u => (r.1, r.2, u)))

def verifyApiKey (rawKey : Nat) : Req (Option (KeyContext × Caller)) := do
  let found ← query (·.keyHolder rawKey)
  match found with
  | none => return none
  | some (id, apiKey, user) =>
    if apiKey.revokedAt.isSome then return none
    else do
      let now ← date
      if apiKey.expiresAt.any (fun t => decide (t ≤ now)) then return none
      else if user.banned || !user.live then return none
      else do
        let now ← date
        if user.suspendedAt now then return none
        else do
          touchApiKey id apiKey.lastUsedAt
          return some (⟨id, apiKey.scopes⟩,
            { id := apiKey.userId, email := user.email, role := user.role })

def authenticateApiKey (header : ApiKeyHeader) : Req (KeyContext × Caller) := do
  match header with
  | .missing => throw (httpError "errors.noApiKeyProvided" 401)
  | .malformed => throw (httpError "errors.invalidOrExpiredApiKey" 401)
  | .key rawKey => do
    let result ← verifyApiKey rawKey
    match result with
    | none => throw (httpError "errors.invalidOrExpiredApiKey" 401)
    | some r => return r

def requireScope (scopes : List String) (apiKey : KeyContext) : Req Unit :=
  if scopes.any apiKey.scopes.contains then return ()
  else throw (httpError "errors.requiredScope" 403 [("scopes", .text (" or ".intercalate scopes))])

end SaasBackend
