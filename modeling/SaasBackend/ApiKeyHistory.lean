import SaasBackend.ApiKeyService
import SaasBackend.UsableAdmins

set_option autoImplicit false

namespace SaasBackend
open Keyed Handler

inductive KeyRequest where
  | keys (header : AuthHeader) (route : KeyRoute)
  | administration (r : Administration)
  | verify (raw : String)

inductive KeyAnswer where
  | reply (reply : ApiKeyReply)
  | verified (found : Option (KeyContext × Caller))
  | done
  deriving DecidableEq, Repr

def KeyRequest.prog (env : Env) : KeyRequest → Req KeyAnswer
  | .keys header route => (route.handle env header).bind fun reply => .ret (.reply reply)
  | .administration r => (r.prog env).bind fun _ => .ret .done
  | .verify raw => (verifyRawKey raw).bind fun found => .ret (.verified found)

abbrev KeyEntry := Entry KeyRequest World Err KeyAnswer

abbrev KeyHistory (env : Env) (w₀ : World) (h : List KeyEntry) (w : World) : Prop :=
  Steps (Served Stmt.exec (KeyRequest.prog env) (fun _ _ => True)) w₀ h w

inductive KeyMark where
  | revoke | delete | restore
  deriving DecidableEq, Repr

def KeyRoute.mark : KeyRoute → Option (Id × KeyMark)
  | .revokeApiKey k => some (k, .revoke)
  | .deleteApiKey k => some (k, .delete)
  | .restoreApiKey k => some (k, .restore)
  | _ => none

def markOf (e : KeyEntry) : Option (Id × KeyMark) :=
  match e.req, e.res with
  | .keys _ route, .ok _ => route.mark
  | _, _ => none

def IssuedBy (e : KeyEntry) (k : Id) (raw : String) (u : Id) (expiresAt : Option Time) : Prop :=
  ∃ token body apiKey, e.req = .keys (.bearer token) (.createApiKey body) ∧
    e.res = .ok (.reply (.created apiKey raw)) ∧ apiKey.id = k ∧ token.id = u ∧
    body.expiresAt = expiresAt

def Revoked (h : List KeyEntry) (k : Id) : Prop := ∃ e ∈ h, markOf e = some (k, .revoke)

def isDeletion (k : Id) (e : KeyEntry) : Bool :=
  markOf e == some (k, .delete) || markOf e == some (k, .restore)

/-- The last deletion or restoration of the key, if there was one, was a restoration. -/
def LastRestored (h : List KeyEntry) (k : Id) : Prop :=
  ∀ e, h.find? (isDeletion k) = some e → markOf e = some (k, .restore)

def VerifiesAs (raw : String) (k : Id) (w : World) : Prop :=
  (verifyRawKey raw).Ends Stmt.exec
    (fun r _ => ∃ key caller, r = .ok (some (key, caller)) ∧ key.id = k) w

section Marks

variable {e : KeyEntry} {h : List KeyEntry} {k : Id}

theorem revoked_cons : Revoked (e :: h) k ↔ markOf e = some (k, .revoke) ∨ Revoked h k := by
  simp [Revoked]

theorem lastRestored_cons : LastRestored (e :: h) k ↔
    markOf e = some (k, .restore) ∨ markOf e ≠ some (k, .delete) ∧ LastRestored h k := by
  simp only [LastRestored, List.find?_cons]
  cases hdeletion : isDeletion k e with
  | true =>
    simp only [isDeletion, Bool.or_eq_true, beq_iff_eq] at hdeletion
    rcases hdeletion with hdelete | hrestore
    · simp [hdelete]
    · simp [hrestore]
  | false =>
    simp only [isDeletion, Bool.or_eq_false_iff, beq_eq_false_iff_ne] at hdeletion
    simp [hdeletion.1, hdeletion.2]

end Marks

structure SameKey (a a' : ApiKey) : Prop where
  keyHash : a'.keyHash = a.keyHash
  userId : a'.userId = a.userId
  expiresAt : a'.expiresAt = a.expiresAt
  revokedAt : a'.revokedAt = a.revokedAt
  deletedAt : a'.deletedAt = a.deletedAt

structure World.KeysRest (w w' : World) : Prop where
  back : ∀ k a', w'.apiKeys.get? k = some a' → ∃ a, w.apiKeys.get? k = some a ∧ SameKey a a'
  forth : ∀ k a, w.apiKeys.get? k = some a → w'.hasUser a.userId = true →
    ∃ a', w'.apiKeys.get? k = some a' ∧ SameKey a a'
  users : ∀ u, w'.hasUser u = true → w.hasUser u = true
  nonce : w.nonce ≤ w'.nonce

def Stmt.sparesKeys : Stmt → Bool
  | .apiKeyCreate _ | .apiKeyUpdate .. | .userCreate _ => false
  | _ => true

section Rest

variable {l : Stmt} {w w' w₁ w₂ w₃ : World}

theorem SameKey.refl (a : ApiKey) : SameKey a a := ⟨rfl, rfl, rfl, rfl, rfl⟩

theorem SameKey.trans {a₁ a₂ a₃ : ApiKey} (h₁ : SameKey a₁ a₂) (h₂ : SameKey a₂ a₃) :
    SameKey a₁ a₃ :=
  ⟨h₂.keyHash.trans h₁.keyHash, h₂.userId.trans h₁.userId, h₂.expiresAt.trans h₁.expiresAt,
    h₂.revokedAt.trans h₁.revokedAt, h₂.deletedAt.trans h₁.deletedAt⟩

theorem World.KeysRest.refl (w : World) : w.KeysRest w :=
  ⟨fun _ a h => ⟨a, h, .refl a⟩, fun _ a h _ => ⟨a, h, .refl a⟩, fun _ h => h, Nat.le_refl _⟩

theorem World.KeysRest.trans (h₁ : w₁.KeysRest w₂) (h₂ : w₂.KeysRest w₃) : w₁.KeysRest w₃ := by
  refine ⟨fun k a₃ hk => ?_, fun k a hk hu => ?_, fun u hu => h₁.users u (h₂.users u hu),
    h₁.nonce.trans h₂.nonce⟩
  · obtain ⟨a₂, hk₂, hsame₂⟩ := h₂.back k a₃ hk
    obtain ⟨a₁, hk₁, hsame₁⟩ := h₁.back k a₂ hk₂
    exact ⟨a₁, hk₁, hsame₁.trans hsame₂⟩
  · obtain ⟨a₂, hk₂, hsame₂⟩ := h₁.forth k a hk (h₂.users _ hu)
    obtain ⟨a₃, hk₃, hsame₃⟩ := h₂.forth k a₂ hk₂ (hsame₂.userId ▸ hu)
    exact ⟨a₃, hk₃, hsame₂.trans hsame₃⟩

theorem World.KeysRest.exec (hl : l.sparesKeys = true) (hexec : l.exec w = .ok w') :
    w.KeysRest w' := by
  have heff := exec_effect hexec
  have husers : ∀ u, w'.hasUser u = true → w.hasUser u = true := by
    intro u hu
    obtain ⟨x, hx⟩ := Option.isSome_iff_exists.mp hu
    rcases heff.user_back hx with ⟨x₀, hx₀, _⟩ | ⟨_, rfl, _⟩
    · exact Option.isSome_iff_exists.mpr ⟨x₀, hx₀⟩
    · cases hl
  have hkept : w'.apiKeys = w.apiKeys → w.KeysRest w' := by
    intro hkeys
    refine ⟨fun k a hk => ⟨a, hkeys ▸ hk, .refl a⟩, fun k a hk _ => ⟨a, hkeys ▸ hk, .refl a⟩,
      husers, heff.nonce_le⟩
  cases l with
  | userDelete u =>
    have hkeys : w'.apiKeys = w.apiKeys.eraseWhere (fun _ k => k.userId == u) := heff.apiKeys
    refine ⟨fun k a hk => ?_, fun k a hk hu => ⟨a, ?_, .refl a⟩, husers, heff.nonce_le⟩
    · rw [hkeys, Table.get?_eraseWhere_eq_some] at hk
      exact ⟨a, hk.1, .refl a⟩
    · rw [hkeys, Table.get?_eraseWhere_eq_some]
      refine ⟨hk, beq_eq_false_iff_ne.mpr fun heq => ?_⟩
      -- the owner is gone
      rw [World.hasUser, heff.users, heq] at hu
      simp [Stmt.usersAfter] at hu
  | apiKeyTouch id instant =>
    have hkeys : ∀ k, w'.apiKeys.get? k = (w.apiKeys.get? k).map (fun a =>
        if k = id then { a with lastUsedAt := some instant, updatedAt := w.now } else a) := by
      intro k
      rw [heff.apiKeys]
      simp only [Stmt.apiKeysAfter, Table.get?_update]
      split <;> simp
    have hsame : ∀ k a, SameKey a
        (if k = id then { a with lastUsedAt := some instant, updatedAt := w.now } else a) := by
      intro k a
      split
      · exact ⟨rfl, rfl, rfl, rfl, rfl⟩
      · exact .refl a
    refine ⟨fun k a' hk => ?_, fun k a hk _ => ⟨_, by rw [hkeys, hk]; rfl, hsame k a⟩, husers,
      heff.nonce_le⟩
    rw [hkeys] at hk
    obtain ⟨a, ha, rfl⟩ := Option.map_eq_some_iff.mp hk
    exact ⟨a, ha, hsame k a⟩
  | apiKeyCreate | apiKeyUpdate | userCreate => cases hl
  | _ => exact hkept heff.apiKeys

theorem keysRest_of_sends {α : Type} {p : Req α} (hp : p.Sends (fun l => l.sparesKeys = true))
    (w : World) :
    p.Ends Stmt.exec (fun _ w' => w.KeysRest w') w :=
  hp.run (R := World.KeysRest) .refl (fun _ _ _ => .trans) (fun _ _ _ => .exec) w

end Rest

section Requests

variable {env : Env} {w : World}

theorem sparesKeys_of_reads {α : Type} {p : Req α} (hp : p.Sends (fun l => l = .read)) :
    p.Sends (fun l => l.sparesKeys = true) :=
  hp.mono fun l hl => by rw [hl]; rfl

theorem sparesKeys_of_administers {α : Type} {u : Id} {p : Req α}
    (hp : p.Sends (fun l => l.administers u = true)) :
    p.Sends (fun l => l.sparesKeys = true) := by
  refine hp.mono fun l hl => ?_
  cases l with
  | read | userUpdate => rfl
  | _ => cases hl

theorem administration_spares (r : Administration) :
    (r.prog env).Sends (fun l => l.sparesKeys = true) := by
  cases r with
  | admin header route =>
    refine .bind (sparesKeys_of_reads (authenticate_reads header)) fun caller =>
      .bind (authorize_sends _ _) fun _ => ?_
    cases route with
    | updateUser userId data =>
      exact .bind (sparesKeys_of_administers (updateUser_sends ..)) fun _ => .ret
    | deleteUser userId =>
      exact .bind (sparesKeys_of_administers (deleteUser_sends ..)) fun _ => .ret
    | restoreUser userId =>
      exact .bind (sparesKeys_of_administers (restoreUser_sends _)) fun _ => .ret
  | deleteAccount header password =>
    refine .bind (sparesKeys_of_reads (authenticate_reads header)) fun caller =>
      .bind ?_ fun _ => .ret
    refine (deleteAccount_calls caller.id password).mono fun l hl => ?_
    cases l with
    | read | bcryptCompare | stripeCancel | userDelete => rfl
    | _ => cases hl
  | wait d => exact .send rfl

theorem verifyRawKey_spares (raw : String) :
    (verifyRawKey raw).Sends (fun l => l.sparesKeys = true) := by
  unfold verifyRawKey
  split
  · exact .ret
  · split
    · exact .send rfl
    · refine (verifyApiKey_sends _).mono fun l hl => ?_
      rcases hl with rfl | ⟨id, now, rfl⟩ <;> rfl

theorem listApiKeys_spares (userId : Id) (q : ListParams ApiKeySort) :
    (listApiKeys env userId q).Sends (fun l => l.sparesKeys = true) :=
  .bind (.bind (.send rfl) fun _ => .bind (.send rfl) fun _ => .ret) fun _ => .ret

theorem getApiKey_spares (userId keyId : Id) :
    (getApiKey userId keyId).Sends (fun l => l.sparesKeys = true) := by
  refine .bind (.send rfl) fun found => ?_
  split
  · exact .throw
  · exact .ret

def KeyMark.patch (now : Time) : KeyMark → ApiKeyPatch
  | .revoke => { revokedAt := some (some now) }
  | .delete => { deletedAt := some (some now) }
  | .restore => { deletedAt := some none }

def World.marked (w : World) (k : Id) (m : KeyMark) : World :=
  { w with
    apiKeys := w.apiKeys.update k (fun a => { (m.patch w.now).apply a with updatedAt := w.now }) }

theorem apiKeyUpdate_exec {k : Id} {a : ApiKey} (hk : w.apiKeys.get? k = some a) (m : KeyMark) :
    (Stmt.apiKeyUpdate k (m.patch w.now)).exec w = .ok (w.marked k m) := by
  simp [Stmt.exec, World.require, hk, World.marked]

def Marks (w : World) (k : Id) (m : KeyMark) : Except Err ApiKeyReply → World → Prop := fun r w' =>
  (∃ e, r = .error e) ∧ w' = w ∨ (∃ reply, r = .ok reply) ∧ (∃ a, w.apiKeys.get? k = some a) ∧
    w' = w.marked k m

theorem saveApiKey_ends {k : Id} {a : ApiKey} (hk : w.apiKeys.get? k = some a) (m : KeyMark) :
    (saveApiKey k (m.patch w.now)).Ends Stmt.exec (Marks w k m) w := by
  unfold saveApiKey
  rw [Prog.bind_eq, ends_send_bind, apiKeyUpdate_exec hk m]
  simp only [World.savedApiKey, hk, Option.map_some]
  exact .inr ⟨⟨_, rfl⟩, ⟨a, hk⟩, rfl⟩

theorem found_of_not_isNone {userId k : Id} {state : ApiKey → Bool}
    (h : ¬ ((w.apiKeys.get? k).filter (fun a => a.userId == userId && state a)).isNone = true) :
    ∃ a, w.apiKeys.get? k = some a := by
  rw [Option.isNone_iff_eq_none, ← ne_eq, Option.ne_none_iff_exists'] at h
  obtain ⟨a, ha⟩ := h
  exact ⟨a, (Option.filter_eq_some_iff.mp ha).1⟩

theorem revokeApiKey_ends (userId k : Id) :
    (revokeApiKey userId k).Ends Stmt.exec (Marks w k .revoke) w := by
  unfold revokeApiKey findApiKey
  rw [Prog.bind_eq, ends_query_bind]
  split
  · exact .inl ⟨⟨_, rfl⟩, rfl⟩
  · rename_i hfound
    obtain ⟨a, hk⟩ := found_of_not_isNone hfound
    rw [Prog.bind_eq, ends_date_bind]
    exact saveApiKey_ends hk .revoke

theorem deleteApiKey_ends (userId k : Id) :
    (deleteApiKey userId k).Ends Stmt.exec (Marks w k .delete) w := by
  unfold deleteApiKey findApiKey
  rw [Prog.bind_eq, ends_query_bind]
  split
  · exact .inl ⟨⟨_, rfl⟩, rfl⟩
  · rename_i hfound
    obtain ⟨a, hk⟩ := found_of_not_isNone hfound
    rw [Prog.bind_eq, ends_date_bind, Prog.bind_eq, ends_execute_bind]
    have hexec := apiKeyUpdate_exec hk .delete
    rw [KeyMark.patch] at hexec
    rw [hexec]
    exact .inr ⟨⟨_, rfl⟩, ⟨a, hk⟩, rfl⟩

theorem restoreApiKey_ends (userId k : Id) :
    (restoreApiKey userId k).Ends Stmt.exec (Marks w k .restore) w := by
  unfold restoreApiKey findApiKey
  rw [Prog.bind_eq, ends_query_bind]
  split
  · exact .inl ⟨⟨_, rfl⟩, rfl⟩
  · rename_i hfound
    obtain ⟨a, hk⟩ := found_of_not_isNone hfound
    exact saveApiKey_ends hk .restore

def World.issued (w : World) (userId : Id) (body : CreateApiKeyBody) : World :=
  { w with
    apiKeys := w.apiKeys.insert (w.nonce + 1)
      { body.row userId w.nonce with createdAt := w.now, updatedAt := w.now }
    nonce := w.nonce + 2 }

/-- Nothing but a draw, or a key whose hash no other has. -/
def Issues (w : World) (userId : Id) (body : CreateApiKeyBody) : 
    Except Err ApiKeyReply → World → Prop := fun r w' =>
  (∃ e, r = .error e) ∧ w' = { w with nonce := w.nonce + 1 } ∨
    (∃ apiKey, r = .ok (.created apiKey (rawKeyText w.nonce)) ∧ apiKey.id = w.nonce + 1) ∧
      (∀ k a, w.apiKeys.get? k = some a → a.keyHash ≠ hashToken w.nonce) ∧ w' = w.issued userId body

theorem createApiKey_ends (userId : Id) (body : CreateApiKeyBody) :
    (createApiKey userId body).Ends Stmt.exec (Issues w userId body) w := by
  unfold createApiKey
  simp only [Prog.bind_eq, ends_randomBytes_bind, ends_send_bind, Stmt.exec]
  split
  · rename_i w' hexec
    split at hexec
    · cases hexec
    split at hexec
    · cases hexec
    rename_i hany
    cases hexec
    refine .inr ⟨⟨_, rfl, rfl⟩, fun k a hk heq => ?_, rfl⟩
    have hclash := Table.any_eq_false.mp (Bool.not_eq_true _ ▸ hany) k a hk
    simp [CreateApiKeyBody.row, heq] at hclash
  · exact .inl ⟨⟨_, rfl⟩, rfl⟩

inductive KeyOutcome (e : KeyEntry) : Prop where
  | rest (hrest : e.pre.KeysRest e.post) (hmark : markOf e = none)
      (hissued : ∀ k raw u x, ¬ IssuedBy e k raw u x)
  | marked (k : Id) (m : KeyMark) (a : ApiKey) (hmark : markOf e = some (k, m))
      (hk : e.pre.apiKeys.get? k = some a)
      (hpost : e.post = e.pre.marked k m) (hissued : ∀ k raw u x, ¬ IssuedBy e k raw u x)
  | issued (u : Id) (body : CreateApiKeyBody) (hmark : markOf e = none)
      (hissued : ∀ k raw u' x, IssuedBy e k raw u' x ↔
        k = e.pre.nonce + 1 ∧ raw = rawKeyText e.pre.nonce ∧ u' = u ∧ x = body.expiresAt)
      (hnew : ∀ k a, e.pre.apiKeys.get? k = some a → a.keyHash ≠ hashToken e.pre.nonce)
        (hpost : e.post = e.pre.issued u body)

theorem keyRoute_outcome {token : AccessToken} {x : User} (route : KeyRoute) :
    ((route.serve env (token.caller x)).bind fun reply => .ret (.reply reply)).Ends Stmt.exec
      (fun res w' => KeyOutcome ⟨.keys (.bearer token) route, w, res, w'⟩) w := by
  have hrest : route.mark = none → (∀ body, route ≠ .createApiKey body) →
      (route.serve env (token.caller x)).Sends (fun l => l.sparesKeys = true) →
      ((route.serve env (token.caller x)).bind fun reply => .ret (.reply reply)).Ends Stmt.exec
        (fun res w' => KeyOutcome ⟨.keys (.bearer token) route, w, res, w'⟩) w := by
    intro hmark hcreate hspares
    refine (keysRest_of_sends (hspares.bind fun _ => .ret) w).weaken fun res w' hkeys =>
      .rest hkeys ?_ ?_
    · cases res with
      | ok => exact hmark
      | error => rfl
    · rintro k raw u expiresAt ⟨token', body, apiKey, hreq, -⟩
      cases hreq
      exact hcreate body rfl
  have hmarks : ∀ k m, route.mark = some (k, m) → (∀ body, route ≠ .createApiKey body) →
      (route.serve env (token.caller x)).Ends Stmt.exec (Marks w k m) w →
      ((route.serve env (token.caller x)).bind fun reply => .ret (.reply reply)).Ends Stmt.exec
        (fun res w' => KeyOutcome ⟨.keys (.bearer token) route, w, res, w'⟩) w := by
    intro k m hmark hcreate hends
    have hissued : ∀ {res w'}, ∀ k raw u x,
        ¬ IssuedBy ⟨.keys (.bearer token) route, w, res, w'⟩ k raw u x := by
      rintro res w' k raw u expiresAt ⟨token', body, apiKey, hreq, -⟩
      cases hreq
      exact hcreate body rfl
    refine Ends.bind hends (fun reply w' h => ?_) fun e w' h => ?_
    · obtain ⟨⟨e, he⟩, _⟩ | ⟨_, ⟨a, hk⟩, rfl⟩ := h
      · cases he
      · exact .marked k m a hmark hk rfl hissued
    · obtain ⟨_, rfl⟩ | ⟨⟨_, he⟩, _⟩ := h
      · exact .rest (.refl w') rfl hissued
      · cases he
  cases route with
  | createApiKey body =>
    refine Ends.bind (createApiKey_ends token.id body) (fun reply w' h => ?_) fun e w' h => ?_
    · obtain ⟨⟨e, he⟩, _⟩ | ⟨⟨apiKey, hreply, hid⟩, hnew, rfl⟩ := h
      · cases he
      cases hreply
      refine .issued token.id body rfl (fun k raw u x => ⟨?_, ?_⟩) hnew rfl
      · rintro ⟨token', body', apiKey', hreq, hres, rfl, rfl, rfl⟩
        cases hreq
        cases hres
        exact ⟨hid, rfl, rfl, rfl⟩
      · rintro ⟨rfl, rfl, rfl, rfl⟩
        exact ⟨token, body, apiKey, rfl, rfl, hid, rfl, rfl⟩
    · obtain ⟨_, rfl⟩ | ⟨⟨_, he, _⟩, _⟩ := h
      · refine .rest ⟨fun _ a h => ⟨a, h, .refl a⟩, fun _ a h _ => ⟨a, h, .refl a⟩, fun _ h => h,
          Nat.le_succ _⟩ rfl ?_
        rintro k raw u x ⟨_, _, _, _, hres, _⟩
        cases hres
      · cases he
  | listApiKeys q => exact hrest rfl (fun _ h => (by cases h)) (listApiKeys_spares _ q)
  | getApiKey keyId => exact hrest rfl (fun _ h => (by cases h)) (getApiKey_spares _ keyId)
  | revokeApiKey keyId =>
    exact hmarks keyId .revoke rfl (fun _ h => (by cases h)) (revokeApiKey_ends _ keyId)
  | deleteApiKey keyId =>
    exact hmarks keyId .delete rfl (fun _ h => (by cases h)) (deleteApiKey_ends _ keyId)
  | restoreApiKey keyId =>
    exact hmarks keyId .restore rfl (fun _ h => (by cases h)) (restoreApiKey_ends _ keyId)

theorem keyRequest_outcome (r : KeyRequest) (w : World) :
    (r.prog env).Ends Stmt.exec (fun res w' => KeyOutcome ⟨r, w, res, w'⟩) w := by
  have hother : (∀ header route, r ≠ .keys header route) →
    (r.prog env).Sends (fun l => l.sparesKeys = true) →
      (r.prog env).Ends Stmt.exec (fun res w' => KeyOutcome ⟨r, w, res, w'⟩) w := by
    intro hkeys hspares
    refine (keysRest_of_sends hspares w).weaken fun res w' hrest => .rest hrest ?_ ?_
    · cases r with
      | keys header route => exact absurd rfl (hkeys header route)
      | _ => rfl
    · rintro k raw u x ⟨_, _, _, hreq, _⟩
      exact hkeys _ _ hreq
  cases r with
  | keys header route =>
    simp only [KeyRequest.prog, KeyRoute.handle, Prog.bind_eq, Prog.bind_assoc]
    refine ends_authenticate_bind (fun _ e => .rest (.refl w) rfl ?_) fun token x hheader _ => ?_
    · rintro k raw u x ⟨_, _, _, _, hres, _⟩
      cases hres
    · subst hheader
      exact keyRoute_outcome route
  | administration r =>
    exact hother (fun _ _ h => (by cases h)) ((administration_spares r).bind fun _ => .ret)
  | verify raw =>
    exact hother (fun _ _ h => (by cases h)) ((verifyRawKey_spares raw).bind fun _ => .ret)

end Requests

structure KeyAccounted (h : List KeyEntry) (k : Id) (a : ApiKey) : Prop where
  issued : ∃ e ∈ h, IssuedBy e k (rawKeyText a.keyHash.preimage) a.userId a.expiresAt
  revoked : a.revokedAt = none ↔ ¬ Revoked h k
  deleted : a.deletedAt = none ↔ LastRestored h k

/-- The keys of a reached state. A key that was issued is there as long as its owner is. -/
structure KeyLedger (h : List KeyEntry) (w : World) : Prop where
  unique : w.KeysUnique
  rows : ∀ k a, w.apiKeys.get? k = some a → KeyAccounted h k a
  issued : ∀ e ∈ h, ∀ k raw u x, IssuedBy e k raw u x → k < w.nonce ∧ (w.hasUser u = true →
    ∃ a, w.apiKeys.get? k = some a ∧ rawKeyText a.keyHash.preimage = raw ∧ a.userId = u ∧
    a.expiresAt = x)
  marked : ∀ e ∈ h, ∀ k m, markOf e = some (k, m) → k < w.nonce

section Ledger

variable {h : List KeyEntry} {e : KeyEntry} {k : Id} {a a' : ApiKey} {w : World}

theorem KeyLedger.drawn (hw : KeyLedger h w) (hk : w.apiKeys.get? k = some a) : k < w.nonce := by
  obtain ⟨e, he, hissued⟩ := (hw.rows k a hk).issued
  exact (hw.issued e he _ _ _ _ hissued).1

theorem KeyAccounted.cons (hk : KeyAccounted h k a) (hmark : ∀ m, markOf e ≠ some (k, m))
    (hsame : SameKey a a') :
    KeyAccounted (e :: h) k a' := by
  obtain ⟨e', he', hissued⟩ := hk.issued
  refine ⟨⟨e', .tail _ he', ?_⟩, ?_, ?_⟩
  · rw [hsame.keyHash, hsame.userId, hsame.expiresAt]
    exact hissued
  · rw [hsame.revokedAt, hk.revoked, revoked_cons]
    simp [hmark]
  · rw [hsame.deletedAt, hk.deleted, lastRestored_cons]
    simp [hmark]

theorem KeyAccounted.mark (hk : KeyAccounted h k a) {m : KeyMark} (hmark : markOf e = some (k, m))
    (now : Time) :
    KeyAccounted (e :: h) k { (m.patch now).apply a with updatedAt := now } := by
  obtain ⟨e', he', hissued⟩ := hk.issued
  refine ⟨⟨e', .tail _ he', hissued⟩, ?_, ?_⟩
  · rw [revoked_cons, hmark]
    cases m <;> simp [KeyMark.patch, ApiKeyPatch.apply, hk.revoked]
  · rw [lastRestored_cons, hmark]
    cases m <;> simp [KeyMark.patch, ApiKeyPatch.apply, hk.deleted]

theorem KeyLedger.unmarked (hw : KeyLedger h w) (hk : w.nonce ≤ k) :
    ¬ Revoked h k ∧ LastRestored h k := by
  have hnone : ∀ e ∈ h, ∀ m, markOf e ≠ some (k, m) := fun e he m hmark =>
    absurd (hw.marked e he k m hmark) (Nat.not_lt.mpr hk)
  refine ⟨fun ⟨e, he, hmark⟩ => hnone e he _ hmark, fun e hfound => ?_⟩
  have hdeletion := List.find?_some hfound
  simp only [isDeletion, Bool.or_eq_true, beq_iff_eq] at hdeletion
  exact absurd hdeletion (not_or.mpr ⟨hnone e (List.mem_of_find?_eq_some hfound) _,
    hnone e (List.mem_of_find?_eq_some hfound) _⟩)

theorem KeyLedger.rest (hw : KeyLedger h e.pre) (hrest : e.pre.KeysRest e.post)
    (hmark : markOf e = none) (hissued : ∀ k raw u x, ¬ IssuedBy e k raw u x) :
    KeyLedger (e :: h) e.post := by
  refine ⟨?_, fun k a' hk => ?_, ?_, ?_⟩
  · intro k k' a a' hk hk' hhash
    obtain ⟨a₀, hk₀, hsame₀⟩ := hrest.back k a hk
    obtain ⟨a₁, hk₁, hsame₁⟩ := hrest.back k' a' hk'
    exact hw.unique k k' a₀ a₁ hk₀ hk₁ (by rw [← hsame₀.keyHash, ← hsame₁.keyHash, hhash])
  · obtain ⟨a, hk₀, hsame⟩ := hrest.back k a' hk
    exact (hw.rows k a hk₀).cons (by simp [hmark]) hsame
  · intro e' he' k raw u x hissued'
    rcases List.mem_cons.mp he' with rfl | he'
    · exact absurd hissued' (hissued k raw u x)
    obtain ⟨hlt, hthere⟩ := hw.issued e' he' k raw u x hissued'
    refine ⟨Nat.lt_of_lt_of_le hlt hrest.nonce, fun hu => ?_⟩
    obtain ⟨a, hk, hraw, rfl, rfl⟩ := hthere (hrest.users u hu)
    obtain ⟨a', hk', hsame⟩ := hrest.forth k a hk hu
    exact ⟨a', hk', by rw [hsame.keyHash, hraw], hsame.userId, hsame.expiresAt⟩
  · intro e' he' k m hmark'
    rcases List.mem_cons.mp he' with rfl | he'
    · rw [hmark] at hmark'
      cases hmark'
    · exact Nat.lt_of_lt_of_le (hw.marked e' he' k m hmark') hrest.nonce

theorem World.marked_get? (w : World) (k k' : Id) (m : KeyMark) : (w.marked k m).apiKeys.get? k' =
    (w.apiKeys.get? k').map
      (fun a => if k' = k then { (m.patch w.now).apply a with updatedAt := w.now } else a) := by
  simp only [World.marked, Table.get?_update]
  split <;> simp

theorem KeyLedger.mark (hw : KeyLedger h e.pre) {m : KeyMark} (hmark : markOf e = some (k, m))
    (hk : e.pre.apiKeys.get? k = some a) (hissued : ∀ k raw u x, ¬ IssuedBy e k raw u x) :
    KeyLedger (e :: h) (e.pre.marked k m) := by
  have hterms : ∀ k' b,
    (if k' = k then { (m.patch e.pre.now).apply b with updatedAt := e.pre.now } else b).keyHash =
    b.keyHash ∧
      (if k' = k then { (m.patch e.pre.now).apply b with updatedAt := e.pre.now } else b).userId =
        b.userId ∧
      (if k' = k then { (m.patch e.pre.now).apply b with updatedAt := e.pre.now
        } else b).expiresAt = b.expiresAt := by
    intro k' b
    split <;> exact ⟨rfl, rfl, rfl⟩
  refine ⟨?_, fun k' a' hk' => ?_, ?_, ?_⟩
  · intro i j b b' hi hj hhash
    rw [World.marked_get?] at hi hj
    obtain ⟨b₀, hi₀, rfl⟩ := Option.map_eq_some_iff.mp hi
    obtain ⟨b₁, hj₁, rfl⟩ := Option.map_eq_some_iff.mp hj
    rw [(hterms i b₀).1, (hterms j b₁).1] at hhash
    exact hw.unique i j b₀ b₁ hi₀ hj₁ hhash
  · rw [World.marked_get?] at hk'
    obtain ⟨b, hb, rfl⟩ := Option.map_eq_some_iff.mp hk'
    by_cases heq : k' = k
    · subst heq
      rw [if_pos rfl]
      exact (hw.rows k' b hb).mark hmark _
    · rw [if_neg heq]
      exact (hw.rows k' b hb).cons (fun m' h => heq (by rw [hmark] at h; cases h; rfl)) (.refl b)
  · intro e' he' k' raw u x hissued'
    rcases List.mem_cons.mp he' with rfl | he'
    · exact absurd hissued' (hissued k' raw u x)
    obtain ⟨hlt, hthere⟩ := hw.issued e' he' k' raw u x hissued'
    refine ⟨hlt, fun hu => ?_⟩
    obtain ⟨b, hb, hraw, rfl, rfl⟩ := hthere hu
    obtain ⟨hhash, huser, hexpires⟩ := hterms k' b
    exact ⟨_, by rw [World.marked_get?, hb]; rfl, by rw [hhash, hraw], huser, hexpires⟩
  · intro e' he' k' m' hmark'
    rcases List.mem_cons.mp he' with rfl | he'
    · rw [hmark] at hmark'
      cases hmark'
      exact hw.drawn hk
    · exact hw.marked e' he' k' m' hmark'

theorem KeyLedger.issue (hw : KeyLedger h e.pre) {u : Id} {body : CreateApiKeyBody}
    (hmark : markOf e = none) (hissued : ∀ k raw u' x, IssuedBy e k raw u' x ↔
      k = e.pre.nonce + 1 ∧ raw = rawKeyText e.pre.nonce ∧ u' = u ∧ x = body.expiresAt)
    (hnew : ∀ k a, e.pre.apiKeys.get? k = some a → a.keyHash ≠ hashToken e.pre.nonce) :
    KeyLedger (e :: h) (e.pre.issued u body) := by
  have hnonce : e.pre.nonce < (e.pre.issued u body).nonce := Nat.lt_add_of_pos_right (by decide)
  have hfree : e.pre.apiKeys.get? (e.pre.nonce + 1) = none := by
    cases hk : e.pre.apiKeys.get? (e.pre.nonce + 1) with
    | none => rfl
    | some a => exact absurd (hw.drawn hk) (Nat.not_lt.mpr (Nat.le_succ _))
  have hrow : (e.pre.issued u body).apiKeys.get? (e.pre.nonce + 1) =
      some { body.row u e.pre.nonce with createdAt := e.pre.now, updatedAt := e.pre.now } :=
        Table.get?_insert_self _ hfree
  refine ⟨?_, fun k a hk => ?_, ?_, ?_⟩
  · intro k k' a a' hk hk' hhash
    rcases Table.get?_insert_cases hk with hk | ⟨rfl, rfl⟩ <;>
      rcases Table.get?_insert_cases hk' with hk' | ⟨rfl, rfl⟩
    · exact hw.unique k k' a a' hk hk' hhash
    · exact absurd hhash (hnew k a hk)
    · exact absurd hhash.symm (hnew k' a' hk')
    · rfl
  · rcases Table.get?_insert_cases hk with hk | ⟨rfl, rfl⟩
    · exact (hw.rows k a hk).cons (by simp [hmark]) (.refl a)
    · obtain ⟨hrevoked, hrestored⟩ := hw.unmarked (Nat.le_succ _)
      refine ⟨⟨e, .head _, (hissued _ _ _ _).mpr ⟨rfl, rfl, rfl, rfl⟩⟩, ?_, ?_⟩
      · simp [CreateApiKeyBody.row, revoked_cons, hmark, hrevoked]
      · simp [CreateApiKeyBody.row, lastRestored_cons, hmark, hrestored]
  · intro e' he' k raw u' x hissued'
    rcases List.mem_cons.mp he' with rfl | he'
    · obtain ⟨rfl, rfl, rfl, rfl⟩ := (hissued k raw u' x).mp hissued'
      exact ⟨Nat.lt_succ_self _, fun _ => ⟨_, hrow, rfl, rfl, rfl⟩⟩
    · obtain ⟨hlt, hthere⟩ := hw.issued e' he' k raw u' x hissued'
      refine ⟨hlt.trans hnonce, fun hu => ?_⟩
      obtain ⟨a, hk, hterms⟩ := hthere hu
      exact ⟨a, Table.get?_insert_of_some hk, hterms⟩
  · intro e' he' k m hmark'
    rcases List.mem_cons.mp he' with rfl | he'
    · rw [hmark] at hmark'
      cases hmark'
    · exact (hw.marked e' he' k m hmark').trans hnonce

theorem KeyOutcome.ledger (hw : KeyLedger h e.pre) (ho : KeyOutcome e) :
    KeyLedger (e :: h) e.post := by
  cases ho with
  | rest hrest hmark hissued => exact hw.rest hrest hmark hissued
  | marked k m a hmark hk hpost hissued => exact hpost ▸ hw.mark hmark hk hissued
  | issued u body hmark hissued hnew hpost => exact hpost ▸ hw.issue hmark hissued hnew

theorem keyHistory_ledger {env : Env} {w₀ : World} (hkeys : ∀ k, w₀.apiKeys.get? k = none)
    (hrun : KeyHistory env w₀ h w) : KeyLedger h w := by
  refine Served.invariant KeyLedger ?_ (fun h w r hw _ => ?_) hrun
  · have hnone : ∀ k a, w₀.apiKeys.get? k ≠ some a := fun k a hk => by simp [hkeys] at hk
    exact ⟨fun k _ a _ hk => absurd hk (hnone k a), fun k a hk => absurd hk (hnone k a),
      fun _ he => (by cases he), fun _ he => (by cases he)⟩
  · exact (keyRequest_outcome r w).weaken fun res w' ho => ho.ledger hw

end Ledger

section Verdict

variable {w : World} {raw : String} {k : Id}

theorem verifiesAs_iff (hkeys : w.KeysUnique) :
    VerifiesAs raw k w ↔ ∃ a x, w.apiKeys.get? k = some a ∧
    rawKeyText a.keyHash.preimage = raw ∧ a.deletedAt = none ∧ w.users.get? a.userId = some x ∧
      KeyGood a x w.now := by
  unfold VerifiesAs verifyRawKey
  split
  · rename_i hrefused
    refine ⟨fun ⟨_, _, h, _⟩ => (by cases h), ?_⟩
    rintro ⟨a, x, _, rfl, -⟩
    rw [rawKeyText_prefixed] at hrefused
    cases hrefused
  cases hdraw : rawKeyOf raw with
  | none =>
    refine ⟨fun ⟨_, _, h, _⟩ => (by cases h), ?_⟩
    rintro ⟨a, x, _, rfl, -⟩
    rw [rawKeyOf_text] at hdraw
    cases hdraw
  | some draw =>
    obtain rfl := rawKeyOf_eq_some.mp hdraw
    obtain ⟨found, hr, hiff⟩ : (verifyApiKey draw).Ends Stmt.exec _ w := verifyApiKey_ends draw
    constructor
    · rintro ⟨key, caller, hr', rfl⟩
      rw [hr] at hr'
      obtain ⟨k, a, x, hfound, hgood, rfl, _⟩ := (hiff key caller).mp (Except.ok.inj hr')
      obtain ⟨hk, hpresented, hdeleted, hx⟩ := keyHolder_found hfound
      exact ⟨a, x, hk, by rw [hpresented]; rfl, hdeleted, hx, hgood⟩
    · rintro ⟨a, x, hk, htext, hdeleted, hx, hgood⟩
      have hpresented : a.keyHash = hashToken draw := by
        rw [← rawKeyText_inj.mp htext]
        rfl
      have hfound := keyHolder_unique hkeys hk hpresented hdeleted hx
      exact ⟨_, _, hr.trans (congrArg _ ((hiff _ _).mpr ⟨k, a, x, hfound, hgood, rfl, rfl⟩)), rfl⟩

end Verdict

/-- A text is taken for key `k` exactly when `createApiKey` returned it for `k`, the key was never
revoked, its last deletion was undone, it has not expired, and its owner is there and not blocked.
A revoked key works for nobody any more, whatever was done after. -/
theorem verifies_by_history (env : Env) {w₀ : World} (hkeys : ∀ k, w₀.apiKeys.get? k = none)
    {h : List KeyEntry} {w : World} (hrun : KeyHistory env w₀ h w) (k : Id) :
    (∀ raw, VerifiesAs raw k w ↔ (∃ e ∈ h, ∃ u expiresAt, IssuedBy e k raw u expiresAt ∧
        (∀ t, expiresAt = some t → w.now < t) ∧ ∃ x, w.users.get? u = some x ∧ x.Clear w.now) ∧
      ¬ Revoked h k ∧ LastRestored h k) ∧
    (Revoked h k → ∀ raw, ¬ VerifiesAs raw k w) := by
  have hw := keyHistory_ledger hkeys hrun
  have hiff : ∀ raw, VerifiesAs raw k w ↔ (∃ e ∈ h, ∃ u expiresAt, IssuedBy e k raw u expiresAt ∧
      (∀ t, expiresAt = some t → w.now < t) ∧ ∃ x, w.users.get? u = some x ∧ x.Clear w.now) ∧
      ¬ Revoked h k ∧ LastRestored h k := by
    intro raw
    rw [verifiesAs_iff hw.unique]
    constructor
    · rintro ⟨a, x, hk, rfl, hdeleted, hx, hgood⟩
      have hrow := hw.rows k a hk
      obtain ⟨e, he, hissued⟩ := hrow.issued
      exact ⟨⟨e, he, _, _, hissued, hgood.notExpired, x, hx, hgood.clear⟩,
        hrow.revoked.mp hgood.notRevoked, hrow.deleted.mp hdeleted⟩
    · rintro ⟨⟨e, he, u, expiresAt, hissued, hexpires, x, hx, hclear⟩, hrevoked, hrestored⟩
      obtain ⟨a, hk, hraw, rfl, rfl⟩ :=
        (hw.issued e he k raw u expiresAt hissued).2 (Option.isSome_iff_exists.mpr ⟨x, hx⟩)
      have hrow := hw.rows k a hk
      exact ⟨a, x, hk, hraw, hrow.deleted.mpr hrestored, hx, hrow.revoked.mpr hrevoked,
        hexpires, hclear⟩
  exact ⟨hiff, fun hrevoked raw hverifies => ((hiff raw).mp hverifies).2.1 hrevoked⟩

section Sample

def recovered : List KeyRequest :=
  [.keys (bearerOf 1) (.createApiKey { name := "ci", expiresAt := some 90 }),
    .keys (bearerOf 1) (.deleteApiKey 4), .keys (bearerOf 1) (.restoreApiKey 4)]

def keyOffice (rs : List KeyRequest) : List KeyEntry × World :=
  serveAll Stmt.exec (KeyRequest.prog sampleEnv) rs ([], officeWorld)

theorem verifies_by_history_recovered : VerifiesAs (rawKeyText 3) 4 (keyOffice recovered).2 := by
  have hiff := (verifies_by_history sampleEnv (fun _ => rfl)
    (serveAll_steps recovered (fun _ _ _ => trivial) [] .refl : KeyHistory sampleEnv officeWorld
      (keyOffice recovered).1
      (keyOffice recovered).2) 4).1 (rawKeyText 3)
  refine hiff.mpr ⟨⟨_, .tail _ (.tail _ (.head _)), 1, some 90, ⟨_, _, _, rfl, rfl, rfl, rfl, rfl⟩,
    ?_, ?_⟩, ?_, ?_⟩
  · rintro t ⟨⟩
    decide +kernel
  · exact ⟨_, rfl, ⟨rfl, rfl, fun _ h => (by cases h)⟩⟩
  · unfold Revoked
    decide +kernel
  · intro e he
    cases he
    rfl

end Sample

end SaasBackend
