import SaasBackend.OrganizationListings
import SaasBackend.TextCodes

/-! API keys (src/modules/apikey): apikey.service.js with the text of a key, and its routes. -/

set_option autoImplicit false

namespace SaasBackend
open Keyed Handler TextCodes

def KEY_PREFIX : String := "sk_"
def KEY_BYTES : Nat := 32

/-- The bytes of a draw. A supply that has given `256 ^ KEY_BYTES` values goes on with longer
ones. -/
def keyBytes (draw : Nat) : List UInt8 := bytesOfNat (KEY_BYTES + draw / 256 ^ KEY_BYTES) draw

def rawKeyText (draw : Nat) : String := String.ofList (KEY_PREFIX.toList ++ hex (keyBytes draw))

def rawKeyOf (raw : String) : Option Nat :=
  let draw := readHex (raw.toList.drop KEY_PREFIX.length)
  if rawKeyText draw = raw then some draw else none

theorem lt_keyBytes (draw : Nat) : draw < 256 ^ (KEY_BYTES + draw / 256 ^ KEY_BYTES) := by
  have hpos : 0 < 256 ^ KEY_BYTES := Nat.pow_pos (by decide)
  have hgrow : draw / 256 ^ KEY_BYTES + 1 ≤ 256 ^ (draw / 256 ^ KEY_BYTES) :=
    Nat.lt_pow_self (by decide)
  calc draw < 256 ^ KEY_BYTES * (draw / 256 ^ KEY_BYTES + 1) := Nat.lt_mul_div_succ draw hpos
    _ ≤ 256 ^ KEY_BYTES * 256 ^ (draw / 256 ^ KEY_BYTES) := Nat.mul_le_mul_left _ hgrow
    _ = _ := (Nat.pow_add ..).symm

theorem rawKeyOf_text (draw : Nat) : rawKeyOf (rawKeyText draw) = some draw := by
  have hread : readHex ((rawKeyText draw).toList.drop KEY_PREFIX.length) = draw := by
    simp only [rawKeyText, String.toList_ofList]
    exact readHex_bytesOfNat (lt_keyBytes draw)
  simp only [rawKeyOf, hread, if_true]

theorem rawKeyOf_eq_some {raw : String} {draw : Nat} :
    rawKeyOf raw = some draw ↔ rawKeyText draw = raw := by
  constructor
  · intro h
    simp only [rawKeyOf] at h
    split at h
    · rename_i htext
      cases h
      exact htext
    · cases h
  · rintro rfl
    exact rawKeyOf_text draw

theorem rawKeyText_inj {draw draw' : Nat} : rawKeyText draw = rawKeyText draw' ↔ draw = draw' := by
  refine ⟨fun h => ?_, fun h => h ▸ rfl⟩
  have hsame := rawKeyOf_text draw
  rw [h, rawKeyOf_text] at hsame
  exact (Option.some.inj hsame).symm

theorem rawKeyText_prefixed (draw : Nat) :
    (decide (rawKeyText draw = "") || !KEY_PREFIX.toList.isPrefixOf (rawKeyText draw).toList) =
      false := by
  have htext : (rawKeyText draw).toList = KEY_PREFIX.toList ++ hex (keyBytes draw) :=
    String.toList_ofList
  have hne : rawKeyText draw ≠ "" := by
    intro h
    rw [h] at htext
    cases htext
  simp [hne, htext]

/-- keySelect -/
structure ApiKeyView where
  id : Id
  name : String
  keyPrefix : String
  scopes : List String
  lastUsedAt : Option Time
  expiresAt : Option Time
  revokedAt : Option Time
  deletedAt : Option Time
  createdAt : Time
  updatedAt : Time
  deriving DecidableEq, Repr

def apiKeyView (id : Id) (k : ApiKey) : ApiKeyView :=
  ⟨id, k.name, k.keyPrefix, k.scopes, k.lastUsedAt, k.expiresAt, k.revokedAt, k.deletedAt,
    k.createdAt, k.updatedAt⟩

inductive ApiKeyReply where
  | created (apiKey : ApiKeyView) (key : String)
  | apiKey (apiKey : ApiKeyView)
  | apiKeys (apiKeys : List ApiKeyView) (page : PageMeta)
  | message (messageKey : String)
  deriving DecidableEq, Repr

structure CreateApiKeyBody where
  name : String
  scopes : List String := []
  expiresAt : Option Time := none
  deriving DecidableEq, Repr

def CreateApiKeyBody.row (body : CreateApiKeyBody) (userId : Id) (draw : Nat) : ApiKey where
  name := body.name
  keyHash := hashToken draw
  keyPrefix := String.ofList ((rawKeyText draw).toList.take 10)
  userId := userId
  scopes := body.scopes
  expiresAt := body.expiresAt

def createApiKey (userId : Id) (body : CreateApiKeyBody) : Req ApiKeyReply := do
  let draw ← randomBytes
  let row := body.row userId draw
  let apiKey ← send (.apiKeyCreate row)
    (fun w => apiKeyView w.nonce { row with createdAt := w.now, updatedAt := w.now })
  return .created apiKey (rawKeyText draw)

inductive ApiKeySort where
  | createdAt | name | lastUsedAt
  deriving DecidableEq, Repr

/-- A key that was never used sorts after the others. -/
def ApiKeySort.le (env : Env) (sort : ApiKeySort) (a b : Id × ApiKey) : Bool :=
  match sort with
  | .createdAt => decide (a.2.createdAt ≤ b.2.createdAt)
  | .name => env.textLe a.2.name b.2.name
  | .lastUsedAt => b.2.lastUsedAt.all (fun t => a.2.lastUsedAt.any (fun s => decide (s ≤ t)))

def listApiKeys (env : Env) (userId : Id) (q : ListParams ApiKeySort) : Req ApiKeyReply := do
  let (apiKeys, page) ← listing (q.sort.le env) q
    (fun w => w.apiKeys.filter
      (fun _ k => k.userId == userId && k.revokedAt.isNone && k.deletedAt.isNone &&
      matchesSearch env q.search [k.name, k.keyPrefix]))
    (fun _ r => apiKeyView r.1 r.2)
  return .apiKeys apiKeys page

def findApiKey (userId keyId : Id) (state : ApiKey → Bool) : Req (Option ApiKey) :=
  query (fun w => (w.apiKeys.get? keyId).filter (fun k => k.userId == userId && state k))

def getApiKey (userId keyId : Id) : Req ApiKeyReply := do
  let found ← findApiKey userId keyId (fun k => k.deletedAt.isNone)
  match found with
  | none => throw (httpError "errors.apiKeyNotFound" 404)
  | some apiKey => return .apiKey (apiKeyView keyId apiKey)

def World.savedApiKey (w : World) (keyId : Id) (data : ApiKeyPatch) : Option ApiKeyView :=
  (w.apiKeys.get? keyId).map (fun k => apiKeyView keyId { data.apply k with updatedAt := w.now })

def saveApiKey (keyId : Id) (data : ApiKeyPatch) : Req ApiKeyReply := do
  let saved ← send (.apiKeyUpdate keyId data) (·.savedApiKey keyId data)
  match saved with
  | none => throw (.prisma .P2025)
  | some apiKey => return .apiKey apiKey

def revokeApiKey (userId keyId : Id) : Req ApiKeyReply := do
  let found ← findApiKey userId keyId (fun k => k.revokedAt.isNone && k.deletedAt.isNone)
  if found.isNone then throw (httpError "errors.apiKeyNotFoundOrRevoked" 404)
  else do
    let now ← date
    saveApiKey keyId { revokedAt := some (some now) }

def deleteApiKey (userId keyId : Id) : Req ApiKeyReply := do
  let found ← findApiKey userId keyId (fun k => k.deletedAt.isNone)
  if found.isNone then throw (httpError "errors.apiKeyNotFound" 404)
  else do
    let now ← date
    execute (.apiKeyUpdate keyId { deletedAt := some (some now) })
    return .message "messages.apiKeyDeletedSuccessfully"

def restoreApiKey (userId keyId : Id) : Req ApiKeyReply := do
  let found ← findApiKey userId keyId (fun k => k.deletedAt.isSome)
  if found.isNone then throw (httpError "errors.deletedApiKeyNotFound" 404)
  else saveApiKey keyId { deletedAt := some none }

def verifyRawKey (raw : String) : Req (Option (KeyContext × Caller)) :=
  if raw = "" || !KEY_PREFIX.toList.isPrefixOf raw.toList then return none
  else
    match rawKeyOf raw with
    -- no row holds the hash of such a text
    | none => query (fun _ => none)
    | some draw => verifyApiKey draw

inductive KeyRoute where
  | createApiKey (body : CreateApiKeyBody)
  | listApiKeys (q : ListParams ApiKeySort)
  | getApiKey (keyId : Id)
  | revokeApiKey (keyId : Id)
  | deleteApiKey (keyId : Id)
  | restoreApiKey (keyId : Id)

def KeyRoute.serve (env : Env) (caller : Caller) : KeyRoute → Req ApiKeyReply
  | .createApiKey body => SaasBackend.createApiKey caller.id body
  | .listApiKeys q => SaasBackend.listApiKeys env caller.id q
  | .getApiKey keyId => SaasBackend.getApiKey caller.id keyId
  | .revokeApiKey keyId => SaasBackend.revokeApiKey caller.id keyId
  | .deleteApiKey keyId => SaasBackend.deleteApiKey caller.id keyId
  | .restoreApiKey keyId => SaasBackend.restoreApiKey caller.id keyId

/-- /api/api-keys -/
def KeyRoute.handle (env : Env) (header : AuthHeader) (route : KeyRoute) : Req ApiKeyReply := do
  let caller ← authenticate header
  route.serve env caller

end SaasBackend
