import Mathlib.Data.List.Infix
import SaasBackend.Statements

set_option autoImplicit false

namespace SaasBackend
open Keyed Handler

/-- A verified Google ID token; `none` also stands for an empty claim. -/
structure GooglePayload where
  sub : Option String
  email : Option String
  emailVerified : Bool
  name : Option String
  deriving DecidableEq, Repr

inductive JsNumber where
  | nan
  | infinite (negative : Bool)
  | finite (q : Rat)
  deriving DecidableEq, Repr

/-- Configuration and the functions the services call outside this code: bcryptjs,
otplib, google-auth-library, Stripe's signature check, the Unicode case mapping, and how
the database compares text. -/
structure Env where
  toLowerCase : String → String
  bcryptHash : String → PasswordHash
  bcryptCompare : String → PasswordHash → Bool
  /-- the time step a code is valid for, if it is valid; the last argument is `afterTimeStep` -/
  otpVerify : Nat → Nat → Time → Option Nat → Option Nat
  googleConfigured : Bool
  verifyOAuthState : String → Time → Bool
  /-- the ID token Google hands out for an authorization code -/
  googleExchange : String → Option GooglePayload
  exposeDevTokens : Bool
  /-- JWT_EXPIRES_IN and JWT_REFRESH_EXPIRES_IN as jsonwebtoken reads them, in milliseconds -/
  jwtExpiresInMs : Nat
  jwtRefreshExpiresInMs : Nat
  /-- REFRESH_TOKEN_TTL_MS -/
  refreshTokenTtlMs : Nat
  stripeConfigured : Bool
  webhookSecretConfigured : Bool
  /-- the verified event of a raw body and its signature, or the message of the failure -/
  constructEvent : String → String → Except String StripeEvent
  /-- `contains` with mode insensitive: does the first text contain the second -/
  containsInsensitive : String → String → Bool
  /-- the collation of the database -/
  textLe : String → String → Bool
  /-- the SHA-256 bucket of a flag key for an organization, below 100 -/
  deterministicBucket : String → Option Id → Nat
  numberText : Rat → String
  textNumber : String → JsNumber

def sampleEnv : Env where
  toLowerCase := id
  bcryptHash := id
  bcryptCompare password hash := password == hash
  otpVerify secret code now _ := if code == secret + 1 then some (now / 30000) else none
  googleConfigured := true
  verifyOAuthState _ _ := true
  googleExchange code := some ⟨some code, some code, true, none⟩
  exposeDevTokens := false
  jwtExpiresInMs := 15 * 60 * 1000
  jwtRefreshExpiresInMs := 7 * 24 * 60 * 60 * 1000
  refreshTokenTtlMs := 7 * 24 * 60 * 60 * 1000
  stripeConfigured := true
  webhookSecretConfigured := true
  constructEvent _ _ := .error "no signatures match"
  containsInsensitive text part := decide (part.toList <:+: text.toList)
  textLe a b := decide (a ≤ b)
  deterministicBucket _ _ := 0
  numberText _ := "0"
  textNumber _ := .nan

def verificationTokenTtlMs : Nat := 24 * 60 * 60 * 1000
def resetTokenTtlMs : Nat := 60 * 60 * 1000
def maxFailedAttempts : Nat := 5
def lockDurationMs : Nat := 15 * 60 * 1000
def challengeTtlMs : Nat := 5 * 60 * 1000
def backupCodeCount : Nat := 10
def maxChallengeAttempts : Nat := 5

/-- White space and line terminators, as `String.prototype.trim` removes them. -/
def isJsSpace (c : Char) : Bool :=
  (9 ≤ c.toNat && c.toNat ≤ 13) || c.toNat == 0x20 || c.toNat == 0xA0 || c.toNat == 0x1680 ||
    (0x2000 ≤ c.toNat && c.toNat ≤ 0x200A) || c.toNat == 0x2028 || c.toNat == 0x2029 ||
    c.toNat == 0x202F || c.toNat == 0x205F || c.toNat == 0x3000 || c.toNat == 0xFEFF

def trim (s : String) : String :=
  String.ofList ((s.toList.dropWhile isJsSpace).reverse.dropWhile isJsSpace).reverse

def normalizeEmail (env : Env) (email : String) : String := env.toLowerCase (trim email)

/-- The claims of a signed access token; `exp` is in seconds. -/
structure AccessToken where
  id : Id
  email : String
  role : Role
  tokenVersion : Nat
  exp : Nat
  deriving DecidableEq, Repr

/-- userSelect -/
structure SafeUser where
  id : Id
  name : Option String
  email : String
  role : Role
  createdAt : Time
  deriving DecidableEq, Repr

def safeUser (id : Id) (u : User) : SafeUser := ⟨id, u.name, u.email, u.role, u.createdAt⟩

/-- `{ userAgent, ipAddress }` -/
structure ClientInfo where
  userAgent : Option String := none
  ipAddress : Option String := none
  deriving DecidableEq, Repr

inductive Reply where
  | session (user : Option SafeUser) (token : AccessToken) (refreshToken : RefreshJwt)
      (emailVerificationToken : Option Nat) (backupCodeUsed : Bool)
  | twoFactorRequired (challengeToken : Nat)
  | message (messageKey : String) (devToken : Option Nat)
  | twoFactorSetup (secret : Nat)
  | backupCodes (messageKey : String) (codes : List Nat)
  | sessionRevoked (id : Id)
  | revokedCount (count : Nat)
  deriving DecidableEq, Repr

/-- `if (c) await p` -/
def when (c : Bool) (p : Req Unit) : Req Unit := if c then p else .ret ()

/-- `suspendedUntil && suspendedUntil > now` -/
def User.suspendedAt (u : User) (now : Time) : Bool :=
  u.suspendedUntil.any (fun t => decide (now < t))

def accountSuspended (u : User) : Err :=
  httpError "errors.accountSuspended" 403
    (u.suspendedUntil.toList.map (fun t => ("until", .time t)))

def signToken (env : Env) (id : Id) (email : String) (role : Role) (tokenVersion : Nat) :
    Req AccessToken := do
  let now ← date
  return { id, email, role, tokenVersion, exp := now / 1000 + env.jwtExpiresInMs / 1000 }

/-- jsonwebtoken compares whole seconds. -/
def RefreshJwt.expired (t : RefreshJwt) (now : Time) : Bool := decide (t.exp ≤ now / 1000)
def AccessToken.expired (t : AccessToken) (now : Time) : Bool := decide (t.exp ≤ now / 1000)

def createRefreshTokenRecord (env : Env) (userId : Id) (client : ClientInfo) : Req RefreshJwt := do
  let jti ← randomBytes
  let now ← date
  let refreshToken : RefreshJwt :=
    { sub := userId, jti, exp := now / 1000 + env.jwtRefreshExpiresInMs / 1000 }
  execute (.refreshTokenCreate
    { token := hashToken refreshToken, userId, userAgent := client.userAgent
      ipAddress := client.ipAddress, expiresAt := now + env.refreshTokenTtlMs })
  return refreshToken

def createChallenge (userId : Id) : Req Nat := do
  let challengeToken ← randomBytes
  let now ← date
  execute (.challengeCreate
    { token := hashToken challengeToken, userId, expiresAt := now + challengeTtlMs })
  return challengeToken

def comparePassword (env : Env) (password : String) (hash : PasswordHash) : Req Bool :=
  send (.bcryptCompare (some hash)) (fun _ => env.bcryptCompare password hash)

def dummyCompare : Req Unit := execute (.bcryptCompare none)

def queueVerificationEmail (recipient : String) (token : Nat) : Req Unit :=
  execute (.enqueue (.verification recipient token))

def queuePasswordResetEmail (recipient : String) (token : Nat) : Req Unit :=
  execute (.enqueue (.passwordReset recipient token))

/-- `findFirst({ where: { email, deletedAt: null } })` -/
def findUserByEmail (email : String) : Req (Option (Id × User)) :=
  query (fun w => w.users.find? (fun _ u => u.email == email && u.live))

/-- `findFirst({ where: { id, deletedAt: null } })` -/
def findUserById (id : Id) : Req (Option User) :=
  query (fun w => (w.users.get? id).filter User.live)

def saveUser (id : Id) (data : UserPatch) : Req User :=
  send (.userUpdate id data) (fun w => ((w.users.get? id).map data.apply).getD { email := "" })

def userNotFound : Err := httpError "errors.userNotFound" 404

end SaasBackend
