import SaasBackend.KeyedTable

/-! The tables of prisma/schema.prisma but for audit logs, notifications with their preferences
and failed jobs, which Backend has beside them. Opaque strings that the code only generates,
stores and compares (cuids, random tokens, codes, Stripe ids) are numbers; instants are
milliseconds. -/

set_option autoImplicit false

namespace SaasBackend
open Keyed

abbrev Id := Nat
abbrev Time := Nat

/-- SHA-256 of a token. Collision freedom is built in: the digest determines what
was hashed. -/
structure Digest (α : Type) where
  preimage : α
  deriving DecidableEq, Repr

def hashToken {α : Type} (token : α) : Digest α := ⟨token⟩

@[simp] theorem hashToken_inj {α : Type} {a b : α} : hashToken a = hashToken b ↔ a = b := by
  simp [hashToken]

/-- A secret encrypted at rest by utils/secretCrypto.js. -/
structure Sealed (α : Type) where
  plain : α
  deriving DecidableEq, Repr

def encryptSecret {α : Type} (secret : α) : Sealed α := ⟨secret⟩
def decryptSecret {α : Type} (stored : Sealed α) : α := stored.plain

/-- The claims of a signed refresh token; `jti` is the random UUID that makes two
tokens of one user distinct. -/
structure RefreshJwt where
  sub : Id
  jti : Nat
  exp : Time
  deriving DecidableEq, Repr

inductive Role where
  | user | admin
  deriving DecidableEq, Repr

inductive OrgRole where
  | owner | admin | member
  deriving DecidableEq, Repr

inductive ProjectStatus where
  | active | archived
  deriving DecidableEq, Repr

inductive SubscriptionStatus where
  | active | trialing | pastDue | canceled | incomplete | incompleteExpired | unpaid
  deriving DecidableEq, Repr

inductive InvitationStatus where
  | pending | accepted | declined | expired | canceled
  deriving DecidableEq, Repr

inductive FeatureFlagType where
  | boolean | percentage | plan
  deriving DecidableEq, Repr

inductive Json where
  | null : Json
  | bool : Bool → Json
  | num : Rat → Json
  | str : String → Json
  | arr : List Json → Json
  | obj : List (String × Json) → Json

/-- bcrypt output. -/
abbrev PasswordHash := String

/-- A stored backup code: a SHA-256 digest, or a bcrypt hash from before the change. -/
inductive BackupHash where
  | sha256 : Digest Nat → BackupHash
  | bcrypt : String → BackupHash
  deriving DecidableEq, Repr

structure User where
  email : String
  password : Option PasswordHash := none
  name : Option String := none
  googleId : Option String := none
  role : Role := .user
  emailVerified : Bool := false
  emailVerificationToken : Option (Digest Nat) := none
  emailVerificationExpires : Option Time := none
  pendingEmail : Option String := none
  passwordResetToken : Option (Digest Nat) := none
  passwordResetExpires : Option Time := none
  tokenVersion : Nat := 0
  failedLoginAttempts : Nat := 0
  lockedUntil : Option Time := none
  lastLoginAt : Option Time := none
  banned : Bool := false
  bannedAt : Option Time := none
  suspendedUntil : Option Time := none
  deletedAt : Option Time := none
  twoFactorEnabled : Bool := false
  twoFactorSecret : Option (Sealed Nat) := none
  twoFactorBackupCodes : List BackupHash := []
  lastTotpTimeStep : Option Nat := none
  stripeCustomerId : Option Id := none
  createdAt : Time := 0
  deriving DecidableEq, Repr

/-- `deletedAt: null` -/
def User.live (u : User) : Bool := u.deletedAt.isNone

structure RefreshToken where
  token : Digest RefreshJwt
  userId : Id
  userAgent : Option String := none
  ipAddress : Option String := none
  revoked : Bool := false
  expiresAt : Time
  createdAt : Time := 0
  updatedAt : Time := 0
  deriving DecidableEq, Repr

structure TwoFactorChallenge where
  token : Digest Nat
  userId : Id
  expiresAt : Time
  used : Bool := false
  attempts : Nat := 0
  createdAt : Time := 0
  deriving DecidableEq, Repr

structure Organization where
  name : String
  slug : String
  ownerId : Id
  stripeCustomerId : Option Id := none
  deletedAt : Option Time := none
  createdAt : Time := 0
  updatedAt : Time := 0
  deriving DecidableEq, Repr

structure OrganizationMember where
  organizationId : Id
  userId : Id
  role : OrgRole := .member
  createdAt : Time := 0
  deriving DecidableEq, Repr

structure Project where
  organizationId : Id
  createdById : Id
  name : String
  description : Option String := none
  status : ProjectStatus := .active
  deletedAt : Option Time := none
  createdAt : Time := 0
  updatedAt : Time := 0
  deriving DecidableEq, Repr

structure Plan where
  name : String
  code : String
  stripePriceId : Id
  active : Bool := true
  deriving DecidableEq, Repr

structure Subscription where
  userId : Option Id := none
  organizationId : Option Id := none
  planId : Id
  stripeSubscriptionId : Id
  stripeCustomerId : Id
  status : SubscriptionStatus
  trialEndsAt : Option Time := none
  currentPeriodStart : Option Time := none
  currentPeriodEnd : Option Time := none
  canceledAt : Option Time := none
  stripeEventCreatedAt : Option Time := none
  createdAt : Time := 0
  deriving DecidableEq, Repr

structure ProcessedWebhookEvent where
  type : String
  createdAt : Time := 0
  deriving DecidableEq, Repr

structure ApiKey where
  name : String
  keyHash : Digest Nat
  keyPrefix : String := ""
  userId : Id
  scopes : List String := []
  lastUsedAt : Option Time := none
  expiresAt : Option Time := none
  revokedAt : Option Time := none
  deletedAt : Option Time := none
  createdAt : Time := 0
  updatedAt : Time := 0
  deriving DecidableEq, Repr

structure OrganizationInvitation where
  organizationId : Id
  inviterId : Id
  inviteeEmail : String
  inviteeId : Option Id := none
  role : OrgRole := .member
  status : InvitationStatus := .pending
  token : Digest Nat
  expiresAt : Time
  acceptedAt : Option Time := none
  declinedAt : Option Time := none
  canceledAt : Option Time := none
  createdAt : Time := 0
  updatedAt : Time := 0
  deriving DecidableEq, Repr

structure FeatureFlag where
  key : String
  name : String
  description : Option String := none
  type : FeatureFlagType
  value : Json
  active : Bool := true
  createdAt : Time := 0
  updatedAt : Time := 0

structure OrganizationFeatureFlag where
  featureFlagId : Id
  organizationId : Id
  enabled : Bool := true
  value : Json
  createdAt : Time := 0
  updatedAt : Time := 0

/-- Jobs handed to the e-mail queue. -/
inductive Mail where
  | verification (recipient : String) (token : Nat)
  | passwordReset (recipient : String) (token : Nat)
  | orgInvitation (recipient : String) (orgName : String) (role : OrgRole) (token : Nat)
  deriving DecidableEq, Repr

/-- Stripe's own status strings; anything the code does not list is `other`. -/
inductive StripeStatus where
  | active | trialing | pastDue | canceled | incomplete | incompleteExpired | unpaid
  | other : String → StripeStatus
  deriving DecidableEq, Repr

structure StripeItem where
  price : Id
  currentPeriodStart : Option Nat := none
  currentPeriodEnd : Option Nat := none
  deriving DecidableEq, Repr

/-- `metadata` written at checkout. -/
structure Metadata where
  userId : Option Id := none
  organizationId : Option Id := none
  planId : Option Id := none
  deriving DecidableEq, Repr

/-- A Stripe subscription object; its instants are seconds. -/
structure StripeSub where
  id : Id
  customer : Id
  status : StripeStatus
  trialEnd : Option Nat := none
  currentPeriodStart : Option Nat := none
  currentPeriodEnd : Option Nat := none
  canceledAt : Option Nat := none
  items : List StripeItem := []
  metadata : Metadata := {}
  deriving DecidableEq, Repr

/-- A Stripe checkout session, as far as the webhook reads it. -/
structure CheckoutSession where
  id : Id
  subscription : Option Id := none
  metadata : Metadata := {}
  deriving DecidableEq, Repr

inductive StripeEventBody where
  | checkoutSessionCompleted (session : CheckoutSession)
  | subscriptionCreated (stripeSub : StripeSub)
  | subscriptionUpdated (stripeSub : StripeSub)
  | subscriptionDeleted (stripeSub : StripeSub)
  | unhandled (type : String)
  deriving DecidableEq, Repr

structure StripeEvent where
  id : Id
  created : Option Nat
  body : StripeEventBody
  deriving DecidableEq, Repr

def StripeEvent.type (event : StripeEvent) : String :=
  match event.body with
  | .checkoutSessionCompleted _ => "checkout.session.completed"
  | .subscriptionCreated _ => "customer.subscription.created"
  | .subscriptionUpdated _ => "customer.subscription.updated"
  | .subscriptionDeleted _ => "customer.subscription.deleted"
  | .unhandled type => type

/-- Everything a request can read or change: the tables, the clock, the supply of
ids and random tokens, the e-mail queue, and the subscriptions as Stripe has them. -/
structure World where
  users : Table User := ∅
  refreshTokens : Table RefreshToken := ∅
  twoFactorChallenges : Table TwoFactorChallenge := ∅
  organizations : Table Organization := ∅
  members : Table OrganizationMember := ∅
  invitations : Table OrganizationInvitation := ∅
  projects : Table Project := ∅
  plans : Table Plan := ∅
  subscriptions : Table Subscription := ∅
  processedWebhookEvents : Table ProcessedWebhookEvent := ∅
  apiKeys : Table ApiKey := ∅
  featureFlags : Table FeatureFlag := ∅
  featureFlagOverrides : Table OrganizationFeatureFlag := ∅
  now : Time := 0
  nonce : Nat := 0
  outbox : List Mail := []
  stripe : Table StripeSub := ∅

end SaasBackend
