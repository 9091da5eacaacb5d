import SaasBackend.Schema
import SaasBackend.HandlerInterleaving

/-! The Prisma statements and transactions the services send, as data, and what each
does to the tables: which constraint it can hit, and the foreign keys with the
onDelete actions of the schema. A failed statement changes nothing. -/

set_option autoImplicit false

namespace SaasBackend
open Keyed Handler

/-- P2002 is a unique violation, P2003 a foreign key violation, P2004 a check
constraint, P2025 a record that was required but not found. -/
inductive PrismaCode where
  | P2002 | P2003 | P2004 | P2025
  deriving DecidableEq, Repr

inductive Param where
  | time : Time → Param
  | text : String → Param
  deriving DecidableEq, Repr

/-- What a handler can throw: an `httpError` with its i18n key, a known Prisma error,
or a failure of the database, the queue or Stripe. -/
inductive Err where
  | http (key : String) (status : Nat) (params : List (String × Param))
  | prisma : PrismaCode → Err
  | outage : String → Err
  deriving DecidableEq, Repr

def httpError (key : String) (status : Nat) (params : List (String × Param) := []) : Err :=
  .http key status params

/-- The `data` of a `user.update`: the columns it sets. tokenVersion is not among
them; only the session-killing transactions change it. -/
structure UserPatch where
  email : Option String := none
  password : Option PasswordHash := none
  name : Option String := none
  googleId : Option String := none
  role : Option Role := none
  emailVerified : Option Bool := none
  emailVerificationToken : Option (Option (Digest Nat)) := none
  emailVerificationExpires : Option (Option Time) := none
  pendingEmail : Option (Option String) := none
  passwordResetToken : Option (Option (Digest Nat)) := none
  passwordResetExpires : Option (Option Time) := none
  failedLoginAttempts : Option Nat := none
  failedLoginIncrement : Bool := false
  lockedUntil : Option (Option Time) := none
  lastLoginAt : Option Time := none
  banned : Option Bool := none
  bannedAt : Option (Option Time) := none
  suspendedUntil : Option (Option Time) := none
  deletedAt : Option (Option Time) := none
  twoFactorEnabled : Option Bool := none
  twoFactorSecret : Option (Option (Sealed Nat)) := none
  twoFactorBackupCodes : Option (List BackupHash) := none
  lastTotpTimeStep : Option (Option Nat) := none
  stripeCustomerId : Option Id := none
  deriving DecidableEq, Repr

def UserPatch.apply (d : UserPatch) (u : User) : User :=
  { u with
    email := d.email.getD u.email
    password := d.password <|> u.password
    name := d.name <|> u.name
    googleId := d.googleId <|> u.googleId
    role := d.role.getD u.role
    emailVerified := d.emailVerified.getD u.emailVerified
    emailVerificationToken := d.emailVerificationToken.getD u.emailVerificationToken
    emailVerificationExpires := d.emailVerificationExpires.getD u.emailVerificationExpires
    pendingEmail := d.pendingEmail.getD u.pendingEmail
    passwordResetToken := d.passwordResetToken.getD u.passwordResetToken
    passwordResetExpires := d.passwordResetExpires.getD u.passwordResetExpires
    failedLoginAttempts :=
      if d.failedLoginIncrement then u.failedLoginAttempts + 1
      else d.failedLoginAttempts.getD u.failedLoginAttempts
    lockedUntil := d.lockedUntil.getD u.lockedUntil
    lastLoginAt := d.lastLoginAt <|> u.lastLoginAt
    banned := d.banned.getD u.banned
    bannedAt := d.bannedAt.getD u.bannedAt
    suspendedUntil := d.suspendedUntil.getD u.suspendedUntil
    deletedAt := d.deletedAt.getD u.deletedAt
    twoFactorEnabled := d.twoFactorEnabled.getD u.twoFactorEnabled
    twoFactorSecret := d.twoFactorSecret.getD u.twoFactorSecret
    twoFactorBackupCodes := d.twoFactorBackupCodes.getD u.twoFactorBackupCodes
    lastTotpTimeStep := d.lastTotpTimeStep.getD u.lastTotpTimeStep
    stripeCustomerId := d.stripeCustomerId <|> u.stripeCustomerId }

structure OrganizationPatch where
  name : Option String := none
  slug : Option String := none
  stripeCustomerId : Option Id := none
  deletedAt : Option (Option Time) := none
  deriving DecidableEq, Repr

def OrganizationPatch.apply (d : OrganizationPatch) (o : Organization) : Organization :=
  { o with
    name := d.name.getD o.name
    slug := d.slug.getD o.slug
    stripeCustomerId := d.stripeCustomerId <|> o.stripeCustomerId
    deletedAt := d.deletedAt.getD o.deletedAt }

structure InvitationPatch where
  status : InvitationStatus
  acceptedAt : Option Time := none
  declinedAt : Option Time := none
  canceledAt : Option Time := none
  inviteeId : Option Id := none
  deriving DecidableEq, Repr

def InvitationPatch.apply (d : InvitationPatch) (i : OrganizationInvitation) :
    OrganizationInvitation :=
  { i with
    status := d.status
    acceptedAt := d.acceptedAt <|> i.acceptedAt
    declinedAt := d.declinedAt <|> i.declinedAt
    canceledAt := d.canceledAt <|> i.canceledAt
    inviteeId := d.inviteeId <|> i.inviteeId }

structure ProjectPatch where
  name : Option String := none
  description : Option (Option String) := none
  status : Option ProjectStatus := none
  deletedAt : Option (Option Time) := none
  deriving DecidableEq, Repr

def ProjectPatch.apply (d : ProjectPatch) (p : Project) : Project :=
  { p with
    name := d.name.getD p.name
    description := d.description.getD p.description
    status := d.status.getD p.status
    deletedAt := d.deletedAt.getD p.deletedAt }

structure ApiKeyPatch where
  revokedAt : Option (Option Time) := none
  deletedAt : Option (Option Time) := none
  deriving DecidableEq, Repr

def ApiKeyPatch.apply (d : ApiKeyPatch) (k : ApiKey) : ApiKey :=
  { k with revokedAt := d.revokedAt.getD k.revokedAt, deletedAt := d.deletedAt.getD k.deletedAt }

structure FeatureFlagPatch where
  name : Option String := none
  description : Option String := none
  type : Option FeatureFlagType := none
  value : Option Json := none
  active : Option Bool := none

def FeatureFlagPatch.apply (d : FeatureFlagPatch) (f : FeatureFlag) : FeatureFlag :=
  { f with
    name := d.name.getD f.name
    description := d.description <|> f.description
    type := d.type.getD f.type
    value := d.value.getD f.value
    active := d.active.getD f.active }

/-- One atomic step of a handler. Places of the source whose steps some theorem tells apart
have constructors of their own, even where they send the same SQL. -/
inductive Stmt where
  /-- any find, count or clock reading -/
  | read
  /-- `randomBytes`, `randomUUID`: draws the next value of the supply -/
  | random
  /-- one bcrypt comparison; `none` is the dummy hash -/
  | bcryptCompare (hash : Option PasswordHash)
  /-- a code checked against the TOTP secret and the backup codes of a challenge -/
  | codeCheck (challengeId : Id)
  | userCreate (u : User)
  | userUpdate (id : Id) (data : UserPatch)
  | userDelete (id : Id)
  /-- the transactions that bump tokenVersion and revoke the live refresh tokens -/
  | killSessions (id : Id) (data : UserPatch)
  /-- `refresh`: the transaction of the reuse branch -/
  | reuseDetected (userId : Id)
  | refreshTokenCreate (row : RefreshToken)
  /-- `refresh`: the rotation of the presented token -/
  | refreshTokenRotate (id : Id)
  /-- `refresh`: the presented token turned out to be past expiresAt -/
  | refreshTokenExpire (id : Id)
  /-- `revokeSession` -/
  | refreshTokenRevoke (id : Id)
  /-- `logout` with a token -/
  | refreshTokenRevokeByToken (token : Digest RefreshJwt) (userId : Id)
  | refreshTokenRevokeAll (userId : Id)
  | refreshTokenCleanup (before : Time) (revokedBefore : Time)
  | challengeCreate (row : TwoFactorChallenge)
  | challengeDelete (id : Id)
  | challengeAttempt (id : Id)
  | challengeClaim (id : Id)
  | challengeCleanup (before : Time)
  | organizationCreate (name slug : String) (ownerId : Id)
  | organizationUpdate (id : Id) (data : OrganizationPatch)
  | transferOwnership (orgId newOwnerId currentOwnerId : Id)
  | memberUpdate (id : Id) (role : OrgRole)
  | memberDelete (id : Id)
  | invitationCreate (row : OrganizationInvitation)
  | invitationUpdate (id : Id) (data : InvitationPatch)
  /-- `acceptInvitation`: the transaction that accepts and joins -/
  | invitationAccept (id : Id) (data : InvitationPatch) (orgId userId : Id) (role : OrgRole)
  | invitationCleanup (before : Time)
  | projectCreate (row : Project)
  | projectUpdate (id : Id) (data : ProjectPatch)
  | subscriptionCreate (row : Subscription)
  /-- `upsertSubscription`: the conditional updateMany -/
  | subscriptionApply (row : Subscription) (stamp : Time)
  /-- `handleSubscriptionDeleted`: the unconditional updateMany -/
  | subscriptionDeleted (stripeSubscriptionId : Id) (instant : Time)
  | subscriptionCancel (ids : List Id) (instant : Time)
  | webhookEventCreate (id : Id) (type : String)
  | apiKeyCreate (row : ApiKey)
  | apiKeyUpdate (id : Id) (data : ApiKeyPatch)
  | apiKeyTouch (id : Id) (instant : Time)
  | flagCreate (row : FeatureFlag)
  | flagUpdate (id : Id) (data : FeatureFlagPatch)
  | flagDelete (id : Id)
  | overrideUpsert (flagId orgId : Id) (enabled : Bool) (value : Json)
  | overrideDelete (id : Id)
  | enqueue (mail : Mail)
  | stripeCancel (stripeSubscriptionId : Id)
  /-- time passes -/
  | tick (d : Time)

/-- The unique indexes of `users`: email, googleId and pendingEmail among live rows,
the two token columns among all. -/
def User.clash (u v : User) : Bool :=
  (u.live && v.live &&
    (u.email == v.email || (u.googleId.isSome && u.googleId == v.googleId) ||
      (u.pendingEmail.isSome && u.pendingEmail == v.pendingEmail))) ||
  (u.emailVerificationToken.isSome && u.emailVerificationToken == v.emailVerificationToken) ||
  (u.passwordResetToken.isSome && u.passwordResetToken == v.passwordResetToken)

namespace World

def hasUser (w : World) (id : Id) : Bool := (w.users.get? id).isSome
def hasOrganization (w : World) (id : Id) : Bool := (w.organizations.get? id).isSome
def hasPlan (w : World) (id : Id) : Bool := (w.plans.get? id).isSome

/-- `update ... where id`, with the unique indexes checked on the new row. -/
def setUser (w : World) (id : Id) (f : User → User) : Except Err World :=
  match w.users.get? id with
  | none => .error (.prisma .P2025)
  | some u =>
    if w.users.any (fun k v => k != id && (f u).clash v) then .error (.prisma .P2002)
    else .ok { w with users := w.users.update id f }

/-- The membership of a user in an organization (unique by `@@unique`). -/
def membership (w : World) (orgId userId : Id) : Option (Id × OrganizationMember) :=
  w.members.find? (fun _ m => m.organizationId == orgId && m.userId == userId)

/-- The override of a flag for an organization (unique by `@@unique`). -/
def overrideOf (w : World) (flagId orgId : Id) : Option (Id × OrganizationFeatureFlag) :=
  w.featureFlagOverrides.find? (fun _ o => o.featureFlagId == flagId && o.organizationId == orgId)

/-- Whether an organization goes when user `id` is deleted (`owner`: Cascade). -/
def cascadesOrg (w : World) (id orgId : Id) : Bool :=
  match w.organizations.get? orgId with
  | some o => o.ownerId == id
  | none => false

/-- `DELETE FROM users`, with every onDelete action of the schema. -/
def deleteUser (w : World) (id : Id) : World :=
  { w with
    users := w.users.erase id
    refreshTokens := w.refreshTokens.eraseWhere (fun _ t => t.userId == id)
    twoFactorChallenges := w.twoFactorChallenges.eraseWhere (fun _ c => c.userId == id)
    organizations := w.organizations.eraseWhere (fun _ o => o.ownerId == id)
    members := w.members.eraseWhere (fun _ m => m.userId == id || w.cascadesOrg id m.organizationId)
    invitations := w.invitations.mapRows (fun _ i =>
      if i.inviterId == id || w.cascadesOrg id i.organizationId then none
      else some { i with inviteeId := if i.inviteeId == some id then none else i.inviteeId })
    projects := w.projects.eraseWhere (fun _ p =>
      p.createdById == id || w.cascadesOrg id p.organizationId)
    subscriptions := w.subscriptions.eraseWhere (fun _ s =>
      s.userId == some id || s.organizationId.any (w.cascadesOrg id))
    apiKeys := w.apiKeys.eraseWhere (fun _ k => k.userId == id)
    featureFlagOverrides := w.featureFlagOverrides.eraseWhere (fun _ f =>
      w.cascadesOrg id f.organizationId) }

/-- Update one row of a table, P2025 when it is not there. -/
def require {α : Type} (t : Table α) (id : Id) (w : World) : Except Err World :=
  if (t.get? id).isSome then .ok w else .error (.prisma .P2025)

/-- `num_nonnulls("userId", "organizationId") = 1` -/
def ownerXor (s : Subscription) : Bool := s.userId.isSome != s.organizationId.isSome

end World

open World in
def Stmt.exec : Stmt → World → Except Err World
  | .read, w | .bcryptCompare _, w | .codeCheck _, w => .ok w
  | .random, w => .ok { w with nonce := w.nonce + 1 }
  | .userCreate u, w =>
    if w.users.any (fun _ v => u.clash v) then .error (.prisma .P2002)
    else .ok { w with
      users := w.users.insert w.nonce { u with createdAt := w.now }, nonce := w.nonce + 1 }
  | .userUpdate id d, w => w.setUser id d.apply
  | .userDelete id, w => require w.users id (w.deleteUser id)
  | .killSessions id d, w =>
    match w.setUser id (fun u => { d.apply u with tokenVersion := u.tokenVersion + 1 }) with
    | .error e => .error e
    | .ok w' => .ok { w' with
        refreshTokens := w'.refreshTokens.updateWhere (fun _ t => t.userId == id && !t.revoked)
          (fun t => { t with revoked := true, updatedAt := w.now }) }
  | .reuseDetected id, w =>
    match w.setUser id (fun u => { u with tokenVersion := u.tokenVersion + 1 }) with
    | .error e => .error e
    | .ok w' => .ok { w' with
        refreshTokens := w'.refreshTokens.updateWhere (fun _ t => t.userId == id)
          (fun t => { t with revoked := true, updatedAt := w.now }) }
  | .refreshTokenCreate t, w =>
    if !w.hasUser t.userId then .error (.prisma .P2003)
    else if w.refreshTokens.any (fun _ t' => t.token == t'.token) then .error (.prisma .P2002)
    else .ok { w with
      refreshTokens := w.refreshTokens.insert w.nonce
        { t with createdAt := w.now, updatedAt := w.now }, nonce := w.nonce + 1 }
  | .refreshTokenRotate id, w | .refreshTokenExpire id, w | .refreshTokenRevoke id, w =>
    require w.refreshTokens id { w with
      refreshTokens := w.refreshTokens.update id
        (fun t => { t with revoked := true, updatedAt := w.now }) }
  | .refreshTokenRevokeByToken token userId, w => .ok { w with
      refreshTokens :=
        w.refreshTokens.updateWhere (fun _ t => t.token == token && t.userId == userId)
        (fun t => { t with revoked := true, updatedAt := w.now }) }
  | .refreshTokenRevokeAll userId, w => .ok { w with
      refreshTokens := w.refreshTokens.updateWhere (fun _ t => t.userId == userId && !t.revoked)
        (fun t => { t with revoked := true, updatedAt := w.now }) }
  | .refreshTokenCleanup before revokedBefore, w => .ok { w with
      refreshTokens := w.refreshTokens.eraseWhere (fun _ t =>
        decide (t.expiresAt < before) || (t.revoked && decide (t.updatedAt < revokedBefore))) }
  | .challengeCreate c, w =>
    if !w.hasUser c.userId then .error (.prisma .P2003)
    else if w.twoFactorChallenges.any (fun _ c' => c.token == c'.token) then .error (.prisma .P2002)
    else .ok { w with
      twoFactorChallenges := w.twoFactorChallenges.insert w.nonce { c with createdAt := w.now }
      nonce := w.nonce + 1 }
  | .challengeDelete id, w => require w.twoFactorChallenges id { w with
      twoFactorChallenges := w.twoFactorChallenges.erase id }
  | .challengeAttempt id, w => require w.twoFactorChallenges id { w with
      twoFactorChallenges := w.twoFactorChallenges.update id
        (fun c => { c with attempts := c.attempts + 1 }) }
  | .challengeClaim id, w => .ok { w with
      twoFactorChallenges := w.twoFactorChallenges.updateWhere (fun k c => k == id && !c.used)
        (fun c => { c with used := true }) }
  | .challengeCleanup before, w => .ok { w with
      twoFactorChallenges :=
        w.twoFactorChallenges.eraseWhere (fun _ c => decide (c.expiresAt < before)) }
  | .organizationCreate name slug ownerId, w =>
    if w.organizations.any (fun _ o => o.slug == slug) then .error (.prisma .P2002)
    else if !w.hasUser ownerId then .error (.prisma .P2003)
    else .ok { w with
      organizations := w.organizations.insert w.nonce
        { name, slug, ownerId, createdAt := w.now, updatedAt := w.now }
      members := w.members.insert (w.nonce + 1)
        { organizationId := w.nonce, userId := ownerId, role := .owner, createdAt := w.now }
      nonce := w.nonce + 2 }
  | .organizationUpdate id d, w =>
    match w.organizations.get? id with
    | none => .error (.prisma .P2025)
    | some o =>
      if w.organizations.any (fun k o' => k != id && (d.apply o).slug == o'.slug) then
        .error (.prisma .P2002)
      else .ok { w with
        organizations :=
          w.organizations.update id (fun o => { d.apply o with updatedAt := w.now }) }
  | .transferOwnership orgId newOwnerId currentOwnerId, w =>
    -- organization.update, then the two member updates; any miss rolls all back
    if !w.hasOrganization orgId then .error (.prisma .P2025)
    else
      match w.membership orgId newOwnerId, w.membership orgId currentOwnerId with
      | some (new, _), some (cur, _) => .ok { w with
          organizations := w.organizations.update orgId
            (fun o => { o with ownerId := newOwnerId, updatedAt := w.now })
          members := (w.members.update new (fun m => { m with role := .owner })).update cur
            (fun m => { m with role := .admin }) }
      | _, _ => .error (.prisma .P2025)
  | .memberUpdate id role, w => require w.members id { w with
      members := w.members.update id (fun m => { m with role }) }
  | .memberDelete id, w => require w.members id { w with members := w.members.erase id }
  | .invitationCreate i, w =>
    if !w.hasOrganization i.organizationId || !w.hasUser i.inviterId ||
        !i.inviteeId.all w.hasUser then .error (.prisma .P2003)
    else if w.invitations.any (fun _ j => i.token == j.token ||
        (i.status == .pending && j.status == .pending && i.organizationId == j.organizationId &&
          i.inviteeEmail == j.inviteeEmail)) then .error (.prisma .P2002)
    else .ok { w with
      invitations := w.invitations.insert w.nonce { i with createdAt := w.now, updatedAt := w.now }
      nonce := w.nonce + 1 }
  | .invitationUpdate id d, w =>
    if (w.invitations.get? id).isNone then .error (.prisma .P2025)
    else if !d.inviteeId.all w.hasUser then .error (.prisma .P2003)
    else .ok { w with
      invitations := w.invitations.update id (fun i => { d.apply i with updatedAt := w.now }) }
  | .invitationAccept id d orgId userId role, w =>
    -- organizationInvitation.update, then organizationMember.create
    if (w.invitations.get? id).isNone then .error (.prisma .P2025)
    else if !d.inviteeId.all w.hasUser then .error (.prisma .P2003)
    else if (w.membership orgId userId).isSome then .error (.prisma .P2002)
    else if !w.hasOrganization orgId || !w.hasUser userId then .error (.prisma .P2003)
    else .ok { w with
      invitations := w.invitations.update id (fun i => { d.apply i with updatedAt := w.now })
      members := w.members.insert w.nonce
        { organizationId := orgId, userId, role, createdAt := w.now }
      nonce := w.nonce + 1 }
  | .invitationCleanup before, w => .ok { w with
      invitations := w.invitations.eraseWhere (fun _ i =>
        i.status != .pending && decide (i.updatedAt < before)) }
  | .projectCreate p, w =>
    if !w.hasOrganization p.organizationId || !w.hasUser p.createdById then .error (.prisma .P2003)
    else .ok { w with
      projects := w.projects.insert w.nonce { p with createdAt := w.now, updatedAt := w.now }
      nonce := w.nonce + 1 }
  | .projectUpdate id d, w => require w.projects id { w with
      projects := w.projects.update id (fun p => { d.apply p with updatedAt := w.now }) }
  | .subscriptionCreate s, w =>
    if w.subscriptions.any (fun _ s' => s.stripeSubscriptionId == s'.stripeSubscriptionId) then
      .error (.prisma .P2002)
    else if !ownerXor s then .error (.prisma .P2004)
    else if !w.hasPlan s.planId || !s.userId.all w.hasUser ||
        !s.organizationId.all w.hasOrganization then .error (.prisma .P2003)
    else .ok { w with
      subscriptions := w.subscriptions.insert w.nonce { s with createdAt := w.now }
      nonce := w.nonce + 1 }
  | .subscriptionApply s stamp, w =>
    if w.subscriptions.any (fun _ r => r.stripeSubscriptionId == s.stripeSubscriptionId &&
        r.stripeEventCreatedAt.all (fun t => decide (t ≤ stamp))) then
      if !ownerXor s then .error (.prisma .P2004)
      else if !w.hasPlan s.planId || !s.userId.all w.hasUser ||
          !s.organizationId.all w.hasOrganization then .error (.prisma .P2003)
      else .ok { w with
        subscriptions := w.subscriptions.updateWhere
          (fun _ r => r.stripeSubscriptionId == s.stripeSubscriptionId &&
            r.stripeEventCreatedAt.all (fun t => decide (t ≤ stamp)))
          (fun r => { s with createdAt := r.createdAt }) }
    else .ok w
  | .subscriptionDeleted sid instant, w => .ok { w with
      subscriptions := w.subscriptions.updateWhere (fun _ r => r.stripeSubscriptionId == sid)
        (fun r => { r with status := .canceled, canceledAt := some instant }) }
  | .subscriptionCancel ids instant, w => .ok { w with
      subscriptions := w.subscriptions.updateWhere (fun k _ => ids.contains k)
        (fun r => { r with status := .canceled, canceledAt := some instant }) }
  | .webhookEventCreate id type, w =>
    if (w.processedWebhookEvents.get? id).isSome then .error (.prisma .P2002)
    else .ok { w with
      processedWebhookEvents := w.processedWebhookEvents.insert id { type, createdAt := w.now } }
  | .apiKeyCreate k, w =>
    if !w.hasUser k.userId then .error (.prisma .P2003)
    else if w.apiKeys.any (fun _ k' => k.keyHash == k'.keyHash) then .error (.prisma .P2002)
    else .ok { w with
      apiKeys := w.apiKeys.insert w.nonce { k with createdAt := w.now, updatedAt := w.now }
      nonce := w.nonce + 1 }
  | .apiKeyUpdate id d, w => require w.apiKeys id { w with
      apiKeys := w.apiKeys.update id (fun k => { d.apply k with updatedAt := w.now }) }
  | .apiKeyTouch id instant, w => .ok { w with
      apiKeys :=
        w.apiKeys.update id (fun k => { k with lastUsedAt := some instant, updatedAt := w.now }) }
  | .flagCreate f, w =>
    if w.featureFlags.any (fun _ f' => f.key == f'.key) then .error (.prisma .P2002)
    else .ok { w with
      featureFlags :=
        w.featureFlags.insert w.nonce { f with createdAt := w.now, updatedAt := w.now }
      nonce := w.nonce + 1 }
  | .flagUpdate id d, w => require w.featureFlags id { w with
      featureFlags := w.featureFlags.update id (fun f => { d.apply f with updatedAt := w.now }) }
  | .flagDelete id, w => require w.featureFlags id { w with
      featureFlags := w.featureFlags.erase id
      featureFlagOverrides := w.featureFlagOverrides.eraseWhere (fun _ o => o.featureFlagId == id) }
  | .overrideUpsert flagId orgId enabled value, w =>
    match w.overrideOf flagId orgId with
    | some (id, _) => .ok { w with
        featureFlagOverrides := w.featureFlagOverrides.update id (fun o =>
          { o with enabled, value, updatedAt := w.now }) }
    | none =>
      if (w.featureFlags.get? flagId).isNone || !w.hasOrganization orgId then
        .error (.prisma .P2003)
      else .ok { w with
        featureFlagOverrides := w.featureFlagOverrides.insert w.nonce
          { featureFlagId := flagId, organizationId := orgId, enabled, value, createdAt := w.now,
            updatedAt := w.now }
        nonce := w.nonce + 1 }
  | .overrideDelete id, w => require w.featureFlagOverrides id { w with
      featureFlagOverrides := w.featureFlagOverrides.erase id }
  | .enqueue mail, w => .ok { w with outbox := w.outbox ++ [mail] }
  | .stripeCancel sid, w =>
    if (w.stripe.get? sid).isSome then
      .ok { w with stripe := w.stripe.update sid (fun s => { s with status := .canceled }) }
    else .error (.outage "resource_missing")
  | .tick d, w => .ok { w with now := w.now + d }

abbrev Req (α : Type) := Prog World Err Stmt α

def query {α : Type} (view : World → α) : Req α := .send .read view

/-- A statement whose result is read off the rows it found. -/
def send {α : Type} (l : Stmt) (view : World → α) : Req α := Prog.send l view

def execute (l : Stmt) : Req Unit := Prog.send l (fun _ => ())

/-- `new Date()` / `Date.now()` -/
def date : Req Time := query (·.now)

/-- `randomBytes(32)`: a value no one has seen before. -/
def randomBytes : Req Nat := Prog.send .random (·.nonce)

def Req.runs {α : Type} (p : Req α) (w : World) : Except Err α × World := p.run Stmt.exec w

end SaasBackend
