import SaasBackend.AuthSchemas
import SaasBackend.Base64
import SaasBackend.HandlerInterleaving
import Mathlib.Data.List.Basic

/-! src/utils/secretCrypto.js: secrets at rest, and which of them a server can still read
after it has been started again with other environment variables. -/

set_option autoImplicit false

namespace SaasBackend
namespace SecretCrypto

/-- AES-256-GCM of node's crypto: the ciphertext is the plaintext under a key stream, and the
tag authenticates it. -/
structure Gcm where
  sha256 : String → List UInt8
  keyStream : List UInt8 → List UInt8 → Nat → UInt8
  authTag : List UInt8 → List UInt8 → List UInt8 → Vector UInt8 16

/-- What a `Buffer` that is not UTF-8 is read as. -/
abbrev Lossy := List UInt8 → String

inductive SecretError where
  | error (message : String)
  /-- thrown by node's crypto -/
  | crypto
  deriving DecidableEq, Repr

namespace Gcm

def mask (stream : Nat → UInt8) (bs : List UInt8) : List UInt8 :=
  bs.mapIdx (fun i b => b ^^^ stream i)

/-- `cipher.update`, `cipher.final` and `cipher.getAuthTag` -/
def cipher (gcm : Gcm) (key iv plaintext : List UInt8) : List UInt8 × List UInt8 :=
  let ciphertext := mask (gcm.keyStream key iv) plaintext
  (ciphertext, (gcm.authTag key iv ciphertext).toList)

/-- The lengths that `setAuthTag` takes; a shorter tag is compared as far as it goes. -/
def tagLengths : List Nat := [4, 8, 12, 13, 14, 15, 16]

/-- `decipher.setAuthTag`, `decipher.update` and `decipher.final` -/
def decipher (gcm : Gcm) (key iv tag ciphertext : List UInt8) : Option (List UInt8) :=
  if iv ≠ [] ∧ tag.length ∈ tagLengths ∧
      tag = (gcm.authTag key iv ciphertext).toList.take tag.length then
    some (mask (gcm.keyStream key iv) ciphertext)
  else none

theorem mask_mask (stream : Nat → UInt8) (bs : List UInt8) : mask stream (mask stream bs) = bs := by
  refine List.ext_getElem (by simp [mask]) fun i _ _ => ?_
  simp only [mask, List.getElem_mapIdx, UInt8.xor_assoc, UInt8.xor_self, UInt8.xor_zero]

theorem decipher_cipher (gcm : Gcm) (key : List UInt8) {iv : List UInt8} (hiv : iv ≠ [])
    (plaintext : List UInt8) :
    gcm.decipher key iv (gcm.cipher key iv plaintext).2 (gcm.cipher key iv plaintext).1 =
      some plaintext := by
  simp [decipher, cipher, tagLengths, hiv, mask_mask]

end Gcm

def utf8 (s : String) : List UInt8 := s.toUTF8.data.toList

/-- `buffer.toString('utf8')` -/
def ofUtf8 (lossy : Lossy) (bs : List UInt8) : String :=
  (String.fromUTF8? ⟨bs.toArray⟩).getD (lossy bs)

theorem ofUtf8_utf8 (lossy : Lossy) (s : String) : ofUtf8 lossy (utf8 s) = s := by
  have hbytes : (⟨(utf8 s).toArray⟩ : ByteArray) = s.toByteArray := by simp [utf8]
  rw [ofUtf8, hbytes, String.fromUTF8?, dif_pos s.isValidUTF8]
  rfl

structure ProcessEnv where
  nodeEnv : Option String := none
  databaseUrl : Option String := none
  jwtSecret : Option String := none
  jwtRefreshSecret : Option String := none
  corsOrigin : Option String := none
  appUrl : Option String := none
  secretEncryptionKey : Option String := none
  deriving DecidableEq, Repr

/-- An unset variable and an empty one are both falsy. -/
def truthy (v : Option String) : Option String := v.filter (· ≠ "")

/-- src/config/validateEnv.js -/
def validateEnv (env : ProcessEnv) : List String :=
  let missing := ([("DATABASE_URL", env.databaseUrl), ("JWT_SECRET", env.jwtSecret),
    ("JWT_REFRESH_SECRET", env.jwtRefreshSecret)].filter (fun v => (truthy v.2).isNone)).map (·.1)
  if missing ≠ [] then ["Missing required env vars: " ++ ", ".intercalate missing]
  else if env.nodeEnv = some "production" then
    ([("JWT_SECRET", env.jwtSecret), ("JWT_REFRESH_SECRET", env.jwtRefreshSecret)].filter
      (fun v => decide (jsLength (v.2.getD "") < 32))).map
        (·.1 ++ " must be at least 32 characters in production") ++
    (if env.jwtSecret = env.jwtRefreshSecret then
      ["JWT_SECRET and JWT_REFRESH_SECRET must be different in production"] else []) ++
    (if (truthy env.corsOrigin).isNone then ["CORS_ORIGIN must be set in production"] else []) ++
    (if (truthy env.appUrl).isNone then
      ["APP_URL must be set in production (used to build links in emails)"] else []) ++
    (if (truthy env.secretEncryptionKey).isNone then
      ["SECRET_ENCRYPTION_KEY must be set in production (otherwise 2FA secrets are encrypted " ++
        "under JWT_SECRET, and rotating JWT_SECRET later would lock out every 2FA user)"] else [])
  else []

/-- `SECRET_ENCRYPTION_KEY || JWT_SECRET` -/
def keySource (env : ProcessEnv) : Option String :=
  (truthy env.secretEncryptionKey).or (truthy env.jwtSecret)

def getKey (gcm : Gcm) (env : ProcessEnv) : Except SecretError (List UInt8) :=
  match keySource env with
  | none => .error (.error "SECRET_ENCRYPTION_KEY or JWT_SECRET must be set to encrypt secrets")
  | some source => .ok (gcm.sha256 source)

/-- `PREFIX` -/
def mark : List Char := "enc:v1:".toList

/-- `iv` is what `randomBytes(IV_LENGTH)` drew. -/
def encryptSecret (gcm : Gcm) (env : ProcessEnv) (iv : Vector UInt8 12) (plaintext : String) :
    Except SecretError String := do
  let key ← getKey gcm env
  let (encrypted, tag) := gcm.cipher key iv.toList (utf8 plaintext)
  return String.ofList (mark ++ Base64.encode (iv.toList ++ tag ++ encrypted))

def decryptSecret (gcm : Gcm) (lossy : Lossy) (env : ProcessEnv) (stored : String) :
    Except SecretError String :=
  if !mark.isPrefixOf stored.toList then return stored
  else do
    let raw := Base64.decode (stored.toList.drop mark.length)
    let iv := raw.take 12
    let tag := (raw.drop 12).take 16
    let ciphertext := raw.drop 28
    let key ← getKey gcm env
    match gcm.decipher key iv tag ciphertext with
    | none => throw .crypto
    | some plaintext => return ofUtf8 lossy plaintext

/-- A value in the format of encryptSecret: 12 bytes of iv, 16 of tag, and a byte of ciphertext
for every byte of the secret. -/
def Enciphered (gcm : Gcm) (secret stored : String) : Prop :=
  ∃ key iv, iv.length = 12 ∧ stored = String.ofList (mark ++ Base64.encode
    (iv ++ (gcm.cipher key iv (utf8 secret)).2 ++ (gcm.cipher key iv (utf8 secret)).1))

section RoundTrip

variable {gcm : Gcm} {lossy : Lossy} {env env' : ProcessEnv} {stored secret : String}

theorem getKey_ok {key : List UInt8} (h : getKey gcm env = .ok key) :
    ∃ source, keySource env = some source ∧ key = gcm.sha256 source := by
  unfold getKey at h
  split at h
  · cases h
  · rename_i source hsource
    cases h
    exact ⟨source, hsource, rfl⟩

theorem encryptSecret_ok {iv : Vector UInt8 12} (h : encryptSecret gcm env iv secret = .ok stored) :
    ∃ source, keySource env = some source ∧ stored = String.ofList (mark ++ Base64.encode
      (iv.toList ++ (gcm.cipher (gcm.sha256 source) iv.toList (utf8 secret)).2 ++
        (gcm.cipher (gcm.sha256 source) iv.toList (utf8 secret)).1)) := by
  unfold encryptSecret at h
  cases hkey : getKey gcm env with
  | error e => simp [hkey] at h
  | ok key =>
    obtain ⟨source, hsource, rfl⟩ := getKey_ok hkey
    rw [hkey] at h
    cases h
    exact ⟨source, hsource, rfl⟩

theorem raw_parts {iv tag : List UInt8} (hiv : iv.length = 12) (htag : tag.length = 16)
    (ciphertext : List UInt8) : (iv ++ tag ++ ciphertext).take 12 = iv ∧
      ((iv ++ tag ++ ciphertext).drop 12).take 16 = tag ∧
        (iv ++ tag ++ ciphertext).drop 28 = ciphertext := by
  refine ⟨?_, ?_, ?_⟩ <;> simp [List.drop_append, hiv, htag]

/-- What is encrypted is read back by any server with the same key source. -/
theorem decrypt_encrypt {iv : Vector UInt8 12} (h : encryptSecret gcm env iv secret = .ok stored)
    (hsame : keySource env' = keySource env) :
    decryptSecret gcm lossy env' stored = .ok secret := by
  obtain ⟨source, hsource, rfl⟩ := encryptSecret_ok h
  have hkey : getKey gcm env' = .ok (gcm.sha256 source) := by simp [getKey, hsame, hsource]
  have hlength : iv.toList.length = 12 := by simp
  have hiv : iv.toList ≠ [] := by
    intro hnil
    rw [hnil] at hlength
    cases hlength
  have htag : (gcm.cipher (gcm.sha256 source) iv.toList (utf8 secret)).2.length = 16 := by
    simp [Gcm.cipher]
  obtain ⟨hfirst, hsecond, hthird⟩ := raw_parts hlength htag
    (gcm.cipher (gcm.sha256 source) iv.toList (utf8 secret)).1
  have hmark : ∀ text, mark.isPrefixOf (mark ++ text) = true := fun text => by simp
  simp only [decryptSecret, String.toList_ofList, hmark, List.drop_left, Base64.decode_encode,
    hfirst, hsecond, hthird, hkey, Bool.not_true, Bool.false_eq_true, if_false]
  simp only [bind, Except.bind, Gcm.decipher_cipher gcm _ hiv]
  rw [ofUtf8_utf8]
  rfl

theorem decrypt_same (hsame : keySource env' = keySource env) :
    decryptSecret gcm lossy env' stored = decryptSecret gcm lossy env stored := by
  have hkey : getKey gcm env' = getKey gcm env := by simp [getKey, hsame]
  simp only [decryptSecret, hkey]

theorem decrypt_legacy (h : mark.isPrefixOf stored.toList = false) :
    decryptSecret gcm lossy env stored = .ok stored := by
  simp [decryptSecret, h]
  rfl

end RoundTrip

structure Deployment where
  env : ProcessEnv
  column : Id → Option String

/-- The server is started again, or serves a `setup` or a `disable` of a user. -/
inductive DeploymentEvent where
  | boot (env : ProcessEnv)
  | setup (userId : Id) (iv : Vector UInt8 12) (secret : String)
  | disable (userId : Id)

/-- server.js exits when validateEnv finds a problem. -/
def Deployment.step (gcm : Gcm) (d : Deployment) : DeploymentEvent → Option Deployment
  | .boot env => if validateEnv env = [] then some { d with env } else none
  | .setup userId iv secret =>
    match encryptSecret gcm d.env iv secret with
    | .ok stored => some { d with column := Function.update d.column userId (some stored) }
    | .error _ => none
  | .disable userId => some { d with column := Function.update d.column userId none }

abbrev DeploymentRun (gcm : Gcm) : Deployment → List DeploymentEvent → Deployment → Prop :=
  Handler.Steps (fun d e d' => d.step gcm e = some d')

abbrev Vault := Id → Option String

def Vault.after : DeploymentEvent → Vault → Vault
  | .boot _, v => v
  | .setup userId _ secret, v => Function.update v userId (some secret)
  | .disable userId, v => Function.update v userId none

def Deployment.Holds (gcm : Gcm) (lossy : Lossy) (d : Deployment) (v : Vault) : Prop :=
  ∀ u, (d.column u).map (decryptSecret gcm lossy d.env) = (v u).map .ok

def ProcessEnv.Keyed (key : Option String) (env : ProcessEnv) : Prop :=
  validateEnv env = [] ∧ env.nodeEnv = some "production" ∧ env.secretEncryptionKey = key

section Rotation

variable {gcm : Gcm} {lossy : Lossy} {d d' : Deployment} {key : Option String}

theorem keySource_keyed {env : ProcessEnv} (h : env.Keyed key) : keySource env = truthy key := by
  obtain ⟨hvalid, hprod, rfl⟩ := h
  have hset : (truthy env.secretEncryptionKey).isNone = false := by
    by_contra hunset
    simp only [validateEnv] at hvalid
    by_cases hmissing : ([("DATABASE_URL", env.databaseUrl), ("JWT_SECRET", env.jwtSecret),
        ("JWT_REFRESH_SECRET", env.jwtRefreshSecret)].filter
          (fun v => (truthy v.2).isNone)).map (·.1) ≠ []
    · rw [if_pos hmissing] at hvalid
      cases hvalid
    · rw [if_neg hmissing, if_pos hprod] at hvalid
      have hlast := (List.append_eq_nil_iff.mp hvalid).2
      rw [if_pos (by simpa using hunset)] at hlast
      cases hlast
  cases hkey : truthy env.secretEncryptionKey with
  | none => simp [hkey] at hset
  | some source => simp [keySource, hkey]

theorem Deployment.Holds.step {v : Vault} {e : DeploymentEvent} (hd : d.env.Keyed key)
    (he : ∀ env, e = .boot env → env.Keyed key) (hv : d.Holds gcm lossy v)
    (hstep : d.step gcm e = some d') : d'.env.Keyed key ∧ d'.Holds gcm lossy (Vault.after e v) := by
  cases e with
  | boot env =>
    simp only [Deployment.step] at hstep
    split at hstep
    · cases hstep
      have hsame : keySource env = keySource d.env := by
        rw [keySource_keyed (he env rfl), keySource_keyed hd]
      refine ⟨he env rfl, fun u => ?_⟩
      rw [show Vault.after (.boot env) v = v from rfl, ← hv u]
      exact congrArg (fun f => (d.column u).map f) (funext fun _ => decrypt_same hsame)
    · cases hstep
  | setup userId iv secret =>
    simp only [Deployment.step] at hstep
    split at hstep
    · rename_i stored hstored
      cases hstep
      refine ⟨hd, fun u => ?_⟩
      by_cases hu : u = userId
      · subst hu
        simp [Vault.after, decrypt_encrypt hstored rfl]
      · simpa [Vault.after, hu] using hv u
    · cases hstep
  | disable userId =>
    cases hstep
    refine ⟨hd, fun u => ?_⟩
    by_cases hu : u = userId
    · simp [Vault.after, hu]
    · simpa [Vault.after, hu] using hv u

def Deployment.Written (gcm : Gcm) (d₀ d : Deployment) : Prop :=
  ∀ u stored, d.column u = some stored →
    d₀.column u = some stored ∨ ∃ secret, Enciphered gcm secret stored

theorem Deployment.Written.step {d₀ : Deployment} {e : DeploymentEvent}
    (h : Deployment.Written gcm d₀ d) (hstep : d.step gcm e = some d') :
    Deployment.Written gcm d₀ d' := by
  cases e with
  | boot env =>
    simp only [Deployment.step] at hstep
    split at hstep <;> cases hstep
    exact h
  | setup userId iv secret =>
    simp only [Deployment.step] at hstep
    split at hstep
    · rename_i value hvalue
      cases hstep
      intro u stored hu
      by_cases hself : u = userId
      · subst hself
        obtain ⟨source, _, rfl⟩ := encryptSecret_ok hvalue
        simp only [Function.update_self, Option.some.injEq] at hu
        exact .inr ⟨secret, _, iv.toList, by simp, hu.symm⟩
      · exact h u stored (by simpa [hself] using hu)
    · cases hstep
  | disable userId =>
    cases hstep
    intro u stored hu
    by_cases hself : u = userId
    · simp [hself] at hu
    · exact h u stored (by simpa [hself] using hu)

end Rotation

/-- In every run of a production server, started again any number of times with whatever JWT
secrets but the same SECRET_ENCRYPTION_KEY: it reads every stored secret as it was set last,
those of before encryption included, and it writes none in the clear. -/
theorem secrets_outlive_rotation (gcm : Gcm) (lossy : Lossy) {d₀ d : Deployment}
    {tr : List DeploymentEvent} {v₀ : Vault} (hrun : DeploymentRun gcm d₀ tr d)
    (hv₀ : d₀.Holds gcm lossy v₀) {key : Option String} (hd₀ : d₀.env.Keyed key)
    (hboots : ∀ env, .boot env ∈ tr → env.Keyed key) :
    d.Holds gcm lossy (tr.foldr Vault.after v₀) ∧ Deployment.Written gcm d₀ d := by
  suffices hall : d.env.Keyed key ∧ d.Holds gcm lossy (tr.foldr Vault.after v₀) ∧
      Deployment.Written gcm d₀ d from hall.2
  induction hrun with
  | refl => exact ⟨hd₀, hv₀, fun _ _ h => .inl h⟩
  | snoc hbefore hstep ih =>
    obtain ⟨hkeyed, hholds, hwritten⟩ := ih fun env hmem => hboots env (.tail _ hmem)
    obtain ⟨hkeyed', hholds'⟩ := hholds.step hkeyed
      (fun env heq => hboots env (by rw [heq]; exact List.mem_cons_self)) hstep
    exact ⟨hkeyed', hholds', hwritten.step hstep⟩

section Sample

def sampleGcm : Gcm where
  sha256 := utf8
  keyStream key _ i := key.getD i 7
  authTag key iv ciphertext :=
    Vector.replicate 16 (.ofNat ((key ++ iv ++ ciphertext).map (·.toNat)).sum)

def productionEnv (jwtSecret : String) : ProcessEnv where
  nodeEnv := some "production"
  databaseUrl := some "postgresql://prod-host:5432/db"
  jwtSecret := some jwtSecret
  jwtRefreshSecret := some "refresh-xxxxxxxxxxxxxxxxxxxxxxxxxxxxxxxx"
  corsOrigin := some "https://app.example.com"
  appUrl := some "https://app.example.com"
  secretEncryptionKey := some "enc-key"

def legacyDeployment : Deployment where
  env := productionEnv "access-xxxxxxxxxxxxxxxxxxxxxxxxxxxxxxxxx"
  column u := if u = 1 then some "JBSWY3DP" else none

def rotation : List DeploymentEvent :=
  [.boot (productionEnv "rotated-xxxxxxxxxxxxxxxxxxxxxxxxxxxxxxxx"),
    .setup 2 (Vector.replicate 12 3) "KRSXG5A="]

def legacyVault : Vault := fun u => if u = 1 then some "JBSWY3DP" else none

theorem legacyDeployment_holds (lossy : Lossy) :
    legacyDeployment.Holds sampleGcm lossy legacyVault := by
  intro u
  by_cases hu : u = 1
  · simp only [legacyDeployment, legacyVault, hu, if_true, Option.map_some]
    rw [decrypt_legacy rfl]
  · simp [legacyDeployment, legacyVault, hu]

theorem rotation_run : ∃ d, DeploymentRun sampleGcm legacyDeployment rotation d :=
  ⟨_, .snoc (.snoc .refl rfl) rfl⟩

theorem secrets_outlive_rotation_sample : ∃ d,
    DeploymentRun sampleGcm legacyDeployment rotation d ∧
      d.Holds sampleGcm (fun _ => "") (rotation.foldr Vault.after legacyVault) := by
  obtain ⟨d, hrun⟩ := rotation_run
  have hkeyed : legacyDeployment.env.Keyed (some "enc-key") := ⟨by decide, rfl, rfl⟩
  refine ⟨d, hrun, (secrets_outlive_rotation sampleGcm (fun _ => "") hrun
    (legacyDeployment_holds _) hkeyed ?_).1⟩
  intro env henv
  simp only [rotation, List.mem_cons, reduceCtorEq, DeploymentEvent.boot.injEq, List.not_mem_nil,
    or_false] at henv
  subst henv
  exact ⟨by decide, rfl, rfl⟩

end Sample

end SecretCrypto
end SaasBackend
