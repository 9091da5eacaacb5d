import SaasBackend.AuthTokens

/-! Account administration (src/modules/admin/admin.service.js) and account deletion
(src/modules/gdpr/gdpr.service.js). -/

set_option autoImplicit false

namespace SaasBackend
open Keyed Handler

structure AdminUser where
  id : Id
  email : String
  name : Option String
  role : Role
  emailVerified : Bool
  banned : Bool
  bannedAt : Option Time
  suspendedUntil : Option Time
  deletedAt : Option Time
  lastLoginAt : Option Time
  createdAt : Time
  deriving DecidableEq, Repr

def adminUser (id : Id) (u : User) : AdminUser :=
  ⟨id, u.email, u.name, u.role, u.emailVerified, u.banned, u.bannedAt, u.suspendedUntil,
    u.deletedAt, u.lastLoginAt, u.createdAt⟩

/-- `user.count({ where: { role: 'ADMIN', deletedAt: null } })` -/
def adminCount : Req Nat :=
  query (fun w => (w.users.filter (fun _ u => u.role == .admin && u.live)).length)

/-- Whether the account is the last administrator's; only asked when `demotes` says that
an administrator would be lost. -/
def lastAdmin (demotes : Bool) : Req Bool :=
  if demotes then do
    let count ← adminCount
    return decide (count ≤ 1)
  else return false

namespace Admin

structure UpdateUserBody where
  name : Option String := none
  role : Option Role := none
  banned : Option Bool := none
  suspendedUntil : Option (Option Time) := none
  deriving DecidableEq, Repr

def updateUser (userId : Id) (data : UpdateUserBody) (actingAdminId : Id) : Req AdminUser := do
  if userId = actingAdminId ∧ data.banned = some true then
    throw (httpError "errors.cannotBanSelf" 400)
  else if userId = actingAdminId ∧ data.role = some .user then
    throw (httpError "errors.cannotDemoteSelf" 400)
  else do
    let found ← findUserById userId
    match found with
    | none => throw userNotFound
    | some user => do
      let last ← lastAdmin (decide (data.role = some .user ∧ user.role = .admin))
      if last then throw (httpError "errors.cannotDemoteLastAdmin" 400)
      else do
        let now ← date
        let updated ← saveUser userId
          { name := data.name, role := data.role, banned := data.banned
            bannedAt := data.banned.map (fun b => if b then some now else none)
            suspendedUntil := data.suspendedUntil }
        return adminUser userId updated

def deleteUser (userId actingAdminId : Id) : Req String := do
  let found ← findUserById userId
  match found with
  | none => throw userNotFound
  | some user => do
    let last ← lastAdmin (decide (user.role = .admin))
    if last then throw (httpError "errors.cannotDeleteLastAdmin" 400)
    else if userId = actingAdminId then throw (httpError "errors.cannotDeleteSelf" 400)
    else do
      let now ← date
      execute (.userUpdate userId { deletedAt := some (some now) })
      return "messages.userDeletedSuccessfully"

def restoreUser (userId : Id) : Req String := do
  let found ← query (fun w => (w.users.get? userId).filter (fun u => !u.live))
  match found with
  | none => throw (httpError "errors.deletedUserNotFound" 404)
  | some _ => do
    tryCatch (execute (.userUpdate userId { deletedAt := some none }))
      (fun err =>
        if err = .prisma .P2002 then throw (httpError "errors.cannotRestoreEmailInUse" 409)
        else throw err)
    return "messages.userRestoredSuccessfully"

end Admin

/-- LIVE_SUBSCRIPTION_STATUSES -/
def liveSubscriptionStatuses : List SubscriptionStatus := [.active, .trialing, .pastDue]

/-- The loop over the live subscriptions; the first failure at Stripe ends it. -/
def cancelAtStripe : List (Id × Subscription) → Req Unit
  | [] => return ()
  | (_, sub) :: rest => do
    tryCatch (execute (.stripeCancel sub.stripeSubscriptionId))
      (fun _ => throw (httpError "errors.stripeCancellationFailed" 502))
    cancelAtStripe rest

def World.memberCount (w : World) (orgId : Id) : Nat :=
  (w.members.filter (fun _ m => m.organizationId == orgId)).length

def World.blockingOrgs (w : World) (userId : Id) : List String :=
  (w.organizations.filter (fun k o => o.ownerId == userId && decide (1 < w.memberCount k))).map
    (·.2.slug)

def World.subscriptionsOf (w : World) (userId : Id) : List (Id × Subscription) :=
  w.subscriptions.filter (fun _ s => liveSubscriptionStatuses.contains s.status &&
    (s.userId == some userId || s.organizationId.any (w.cascadesOrg userId)))

def deleteAccount (env : Env) (userId : Id) (password : String) : Req (String × String) := do
  let found ← findUserById userId
  match found with
  | none => throw userNotFound
  | some user =>
    match user.password with
    | none => throw (httpError "errors.noPasswordSet" 400)
    | some hash => do
      let valid ← comparePassword env password hash
      if !valid then throw (httpError "errors.passwordIncorrect" 401)
      else do
        let last ← lastAdmin (decide (user.role = .admin))
        if last then throw (httpError "errors.cannotDeleteLastAdminAccount" 400)
        else do
          let blocking ← query (·.blockingOrgs userId)
          if blocking ≠ [] then
            throw (httpError "errors.cannotDeleteAccountOwnsOrgWithMembers" 409
              [("organizations", .text (", ".intercalate blocking))])
          else do
            when env.stripeConfigured (do
              let liveSubscriptions ← query (·.subscriptionsOf userId)
              cancelAtStripe liveSubscriptions)
            execute (.userDelete userId)
            return ("messages.accountDeletedSuccessfully", user.email)

end SaasBackend
