import SaasBackend.Statements

set_option autoImplicit false

namespace SaasBackend
open Keyed Handler

theorem setUser_ok {w w' : World} {id : Id} {f : User → User} (h : w.setUser id f = .ok w') :
    w' = { w with users := w.users.update id f } ∧ ∃ u, w.users.get? id = some u ∧
      ∀ k v, w.users.get? k = some v → k ≠ id → (f u).clash v = false := by
  unfold World.setUser at h
  split at h
  · cases h
  · rename_i u hu
    split at h
    · cases h
    · rename_i hany
      cases h
      refine ⟨rfl, u, hu, fun k v hk hne => ?_⟩
      have hclash := Table.any_eq_false.mp (Bool.not_eq_true _ ▸ hany) k v hk
      simpa [hne] using hclash

theorem setUser_eq_ok {w : World} {id : Id} {f : User → User} {u : User}
    (hu : w.users.get? id = some u)
    (hclash : ∀ k v, w.users.get? k = some v → k ≠ id → (f u).clash v = false) :
    w.setUser id f = .ok { w with users := w.users.update id f } := by
  have hany : w.users.any (fun k v => k != id && (f u).clash v) = false := by
    refine Table.any_eq_false.mpr fun k v hk => ?_
    by_cases hne : k = id
    · simp [hne]
    · simp [hclash k v hk hne]
  simp [World.setUser, hu, hany]

theorem userCreate_ok {w w' : World} {x : User} (h : (Stmt.userCreate x).exec w = .ok w') :
    w' = { w with
      users := w.users.insert w.nonce { x with createdAt := w.now }, nonce := w.nonce + 1 } ∧
      ∀ k v, w.users.get? k = some v → x.clash v = false := by
  simp only [Stmt.exec] at h
  split at h
  · cases h
  · rename_i hany
    cases h
    exact ⟨rfl, Table.any_eq_false.mp (Bool.not_eq_true _ ▸ hany)⟩

theorem require_ok {α : Type} {t : Table α} {id : Id} {w w' : World}
    (h : World.require t id w = .ok w') : w' = w ∧ ∃ a, t.get? id = some a := by
  unfold World.require at h
  split at h
  · rename_i hsome
    cases h
    exact ⟨rfl, Option.isSome_iff_exists.mp hsome⟩
  · cases h

theorem invitationUpdate_ok {id : Id} {d : InvitationPatch} {w w' : World}
    (h : (Stmt.invitationUpdate id d).exec w = .ok w') :
    (∃ i, w.invitations.get? id = some i) ∧ d.inviteeId.all w.hasUser = true ∧
      w' = { w with
        invitations :=
          w.invitations.update id (fun i => { d.apply i with updatedAt := w.now }) } := by
  simp only [Stmt.exec] at h
  split at h
  · cases h
  split at h
  · cases h
  rename_i hfound hinvitee
  exact ⟨Option.ne_none_iff_exists'.mp (by simpa using hfound),
    by simpa using hinvitee, (Except.ok.inj h).symm⟩

theorem invitationAccept_ok {id orgId userId : Id} {d : InvitationPatch} {role : OrgRole}
    {w w' : World} (h : (Stmt.invitationAccept id d orgId userId role).exec w = .ok w') :
    (∃ i, w.invitations.get? id = some i) ∧ d.inviteeId.all w.hasUser = true ∧
      w.membership orgId userId = none ∧ w.hasOrganization orgId = true ∧
        w.hasUser userId = true := by
  simp only [Stmt.exec] at h
  split at h
  · cases h
  split at h
  · cases h
  split at h
  · cases h
  split at h
  · cases h
  rename_i hfound hinvitee hfree hparents
  simp only [Bool.or_eq_true, Bool.not_eq_true', not_or, Bool.not_eq_false] at hparents
  exact ⟨Option.ne_none_iff_exists'.mp (by simpa using hfound), by simpa using hinvitee,
    by simpa using hfree, hparents⟩

namespace Stmt

def usersAfter (l : Stmt) (w : World) : Table User :=
  match l with
  | .userCreate u => w.users.insert w.nonce { u with createdAt := w.now }
  | .userUpdate id d => w.users.update id d.apply
  | .userDelete id => w.users.erase id
  | .killSessions id d =>
    w.users.update id (fun u => { d.apply u with tokenVersion := u.tokenVersion + 1 })
  | .reuseDetected id => w.users.update id (fun u => { u with tokenVersion := u.tokenVersion + 1 })
  | _ => w.users

def refreshTokensAfter (l : Stmt) (w : World) : Table RefreshToken :=
  let revoke (t : RefreshToken) : RefreshToken := { t with revoked := true, updatedAt := w.now }
  match l with
  | .refreshTokenCreate t =>
    w.refreshTokens.insert w.nonce { t with createdAt := w.now, updatedAt := w.now }
  | .userDelete id => w.refreshTokens.eraseWhere (fun _ t => t.userId == id)
  | .killSessions id _ | .refreshTokenRevokeAll id =>
    w.refreshTokens.updateWhere (fun _ t => t.userId == id && !t.revoked) revoke
  | .reuseDetected id => w.refreshTokens.updateWhere (fun _ t => t.userId == id) revoke
  | .refreshTokenRotate id | .refreshTokenExpire id | .refreshTokenRevoke id =>
    w.refreshTokens.update id revoke
  | .refreshTokenRevokeByToken token userId =>
    w.refreshTokens.updateWhere (fun _ t => t.token == token && t.userId == userId) revoke
  | .refreshTokenCleanup before revokedBefore =>
    w.refreshTokens.eraseWhere (fun _ t =>
      decide (t.expiresAt < before) || (t.revoked && decide (t.updatedAt < revokedBefore)))
  | _ => w.refreshTokens

def organizationsAfter (l : Stmt) (w : World) : Table Organization :=
  match l with
  | .userDelete id => w.organizations.eraseWhere (fun _ o => o.ownerId == id)
  | .organizationCreate name slug ownerId =>
    w.organizations.insert w.nonce { name, slug, ownerId, createdAt := w.now, updatedAt := w.now }
  | .organizationUpdate id d =>
    w.organizations.update id (fun o => { d.apply o with updatedAt := w.now })
  | .transferOwnership orgId newOwnerId _ =>
    w.organizations.update orgId (fun o => { o with ownerId := newOwnerId, updatedAt := w.now })
  | _ => w.organizations

def swapRoles (w : World) (orgId newOwnerId currentOwnerId : Id) : Table OrganizationMember :=
  match w.membership orgId newOwnerId, w.membership orgId currentOwnerId with
  | some (new, _), some (cur, _) =>
    (w.members.update new (fun m => { m with role := .owner })).update cur
      (fun m => { m with role := .admin })
  | _, _ => w.members

def membersAfter (l : Stmt) (w : World) : Table OrganizationMember :=
  match l with
  | .userDelete id =>
    w.members.eraseWhere (fun _ m => m.userId == id || w.cascadesOrg id m.organizationId)
  | .organizationCreate _ _ ownerId =>
    w.members.insert (w.nonce + 1)
      { organizationId := w.nonce, userId := ownerId, role := .owner, createdAt := w.now }
  | .transferOwnership orgId newOwnerId currentOwnerId =>
      swapRoles w orgId newOwnerId currentOwnerId
  | .memberUpdate id role => w.members.update id (fun m => { m with role })
  | .memberDelete id => w.members.erase id
  | .invitationAccept _ _ orgId userId role =>
    w.members.insert w.nonce { organizationId := orgId, userId, role, createdAt := w.now }
  | _ => w.members

def invitationsAfter (l : Stmt) (w : World) : Table OrganizationInvitation :=
  match l with
  | .userDelete id => w.invitations.mapRows (fun _ i =>
      if i.inviterId == id || w.cascadesOrg id i.organizationId then none
      else some { i with inviteeId := if i.inviteeId == some id then none else i.inviteeId })
  | .invitationCreate i =>
    w.invitations.insert w.nonce { i with createdAt := w.now, updatedAt := w.now }
  | .invitationUpdate id d | .invitationAccept id d _ _ _ =>
    w.invitations.update id (fun i => { d.apply i with updatedAt := w.now })
  | .invitationCleanup before => w.invitations.eraseWhere (fun _ i =>
      i.status != .pending && decide (i.updatedAt < before))
  | _ => w.invitations

def processedWebhookEventsAfter (l : Stmt) (w : World) : Table ProcessedWebhookEvent :=
  match l with
  | .webhookEventCreate id type => w.processedWebhookEvents.insert id { type, createdAt := w.now }
  | _ => w.processedWebhookEvents

def twoFactorChallengesAfter (l : Stmt) (w : World) : Table TwoFactorChallenge :=
  match l with
  | .userDelete id => w.twoFactorChallenges.eraseWhere (fun _ c => c.userId == id)
  | .challengeCreate c => w.twoFactorChallenges.insert w.nonce { c with createdAt := w.now }
  | .challengeDelete id => w.twoFactorChallenges.erase id
  | .challengeAttempt id =>
      w.twoFactorChallenges.update id (fun c => { c with attempts := c.attempts + 1 })
  | .challengeClaim id => w.twoFactorChallenges.updateWhere (fun k c => k == id && !c.used)
      (fun c => { c with used := true })
  | .challengeCleanup before =>
    w.twoFactorChallenges.eraseWhere (fun _ c => decide (c.expiresAt < before))
  | _ => w.twoFactorChallenges

def projectsAfter (l : Stmt) (w : World) : Table Project :=
  match l with
  | .userDelete id => w.projects.eraseWhere (fun _ p =>
      p.createdById == id || w.cascadesOrg id p.organizationId)
  | .projectCreate p => w.projects.insert w.nonce { p with createdAt := w.now, updatedAt := w.now }
  | .projectUpdate id d => w.projects.update id (fun p => { d.apply p with updatedAt := w.now })
  | _ => w.projects

def subscriptionsAfter (l : Stmt) (w : World) : Table Subscription :=
  match l with
  | .userDelete id => w.subscriptions.eraseWhere (fun _ s =>
      s.userId == some id || s.organizationId.any (w.cascadesOrg id))
  | .subscriptionCreate s => w.subscriptions.insert w.nonce { s with createdAt := w.now }
  | .subscriptionApply s stamp => w.subscriptions.updateWhere
      (fun _ r => r.stripeSubscriptionId == s.stripeSubscriptionId &&
        r.stripeEventCreatedAt.all (fun t => decide (t ≤ stamp)))
      (fun r => { s with createdAt := r.createdAt })
  | .subscriptionDeleted sid instant =>
    w.subscriptions.updateWhere (fun _ r => r.stripeSubscriptionId == sid)
      (fun r => { r with status := .canceled, canceledAt := some instant })
  | .subscriptionCancel ids instant =>
    w.subscriptions.updateWhere (fun k _ => ids.contains k)
      (fun r => { r with status := .canceled, canceledAt := some instant })
  | _ => w.subscriptions

def featureFlagOverridesAfter (l : Stmt) (w : World) : Table OrganizationFeatureFlag :=
  match l with
  | .userDelete id =>
      w.featureFlagOverrides.eraseWhere (fun _ f => w.cascadesOrg id f.organizationId)
  | .flagDelete id => w.featureFlagOverrides.eraseWhere (fun _ o => o.featureFlagId == id)
  | .overrideUpsert flagId orgId enabled value =>
    match w.overrideOf flagId orgId with
    | some (id, _) =>
        w.featureFlagOverrides.update id (fun o => { o with enabled, value, updatedAt := w.now })
    | none => w.featureFlagOverrides.insert w.nonce
        { featureFlagId := flagId, organizationId := orgId, enabled, value, createdAt := w.now,
          updatedAt := w.now }
  | .overrideDelete id => w.featureFlagOverrides.erase id
  | _ => w.featureFlagOverrides

def featureFlagsAfter (l : Stmt) (w : World) : Table FeatureFlag :=
  match l with
  | .flagCreate f => w.featureFlags.insert w.nonce { f with createdAt := w.now, updatedAt := w.now }
  | .flagUpdate id d => w.featureFlags.update id (fun f => { d.apply f with updatedAt := w.now })
  | .flagDelete id => w.featureFlags.erase id
  | _ => w.featureFlags

def apiKeysAfter (l : Stmt) (w : World) : Table ApiKey :=
  match l with
  | .userDelete id => w.apiKeys.eraseWhere (fun _ k => k.userId == id)
  | .apiKeyCreate k => w.apiKeys.insert w.nonce { k with createdAt := w.now, updatedAt := w.now }
  | .apiKeyUpdate id d => w.apiKeys.update id (fun k => { d.apply k with updatedAt := w.now })
  | .apiKeyTouch id instant =>
      w.apiKeys.update id (fun k => { k with lastUsedAt := some instant, updatedAt := w.now })
  | _ => w.apiKeys

def nowAfter (l : Stmt) (w : World) : Time :=
  match l with
  | .tick d => w.now + d
  | _ => w.now

def nonceAfter (l : Stmt) (w : World) : Nat :=
  match l with
  | .random | .userCreate _ | .refreshTokenCreate _ | .challengeCreate _ | .invitationCreate _
  | .invitationAccept .. | .projectCreate _ | .subscriptionCreate _ | .apiKeyCreate _
  | .flagCreate _ => w.nonce + 1
  | .overrideUpsert flagId orgId _ _ =>
      if (w.overrideOf flagId orgId).isSome then w.nonce else w.nonce + 1
  | .organizationCreate .. => w.nonce + 2
  | _ => w.nonce

structure Effect (l : Stmt) (w w' : World) : Prop where
  users : w'.users = l.usersAfter w
  refreshTokens : w'.refreshTokens = l.refreshTokensAfter w
  organizations : w'.organizations = l.organizationsAfter w
  members : w'.members = l.membersAfter w
  invitations : w'.invitations = l.invitationsAfter w
  processedWebhookEvents : w'.processedWebhookEvents = l.processedWebhookEventsAfter w
  twoFactorChallenges : w'.twoFactorChallenges = l.twoFactorChallengesAfter w
  projects : w'.projects = l.projectsAfter w
  subscriptions : w'.subscriptions = l.subscriptionsAfter w
  featureFlagOverrides : w'.featureFlagOverrides = l.featureFlagOverridesAfter w
  featureFlags : w'.featureFlags = l.featureFlagsAfter w
  apiKeys : w'.apiKeys = l.apiKeysAfter w
  plans : w'.plans = w.plans
  now : w'.now = l.nowAfter w
  nonce : w'.nonce = l.nonceAfter w

def erasesToken (l : Stmt) (t : RefreshToken) : Bool :=
  match l with
  | .userDelete id => t.userId == id
  | .refreshTokenCleanup before revokedBefore =>
    decide (t.expiresAt < before) || (t.revoked && decide (t.updatedAt < revokedBefore))
  | _ => false

def revokesToken (l : Stmt) (k : Id) (t : RefreshToken) : Bool :=
  match l with
  | .killSessions id _ | .refreshTokenRevokeAll id => t.userId == id && !t.revoked
  | .reuseDetected id => t.userId == id
  | .refreshTokenRotate id | .refreshTokenExpire id | .refreshTokenRevoke id => k == id
  | .refreshTokenRevokeByToken token userId => t.token == token && t.userId == userId
  | _ => false

end Stmt

theorem exec_effect {l : Stmt} {w w' : World} (h : l.exec w = .ok w') : l.Effect w w' := by
  cases l <;> simp only [Stmt.exec] at h
  case userUpdate => rw [(setUser_ok h).1]; constructor <;> rfl
  case killSessions =>
    split at h
    · cases h
    · rename_i hs
      cases h
      rw [(setUser_ok hs).1]; constructor <;> rfl
  case reuseDetected =>
    split at h
    · cases h
    · rename_i hs
      cases h
      rw [(setUser_ok hs).1]; constructor <;> rfl
  case transferOwnership =>
    repeat' split at h
    · cases h
    · rename_i hnew hcur
      cases h
      exact ⟨rfl, rfl, rfl, by simp [Stmt.membersAfter, Stmt.swapRoles, hnew, hcur], rfl, rfl, rfl,
        rfl, rfl, rfl, rfl, rfl, rfl, rfl, rfl⟩
    · cases h
  case subscriptionApply s stamp =>
    split at h
    · split at h
      · cases h
      · split at h
        · cases h
        · cases h
          constructor <;> rfl
    · rename_i hnone
      cases h
      refine ⟨rfl, rfl, rfl, rfl, rfl, rfl, rfl, rfl, ?_, rfl, rfl, rfl, rfl, rfl, rfl⟩
      refine (Table.updateWhere_eq_self.mpr fun k r hk hmatch => ?_).symm
      exact absurd (Table.any_eq_true.mpr ⟨k, r, hk, hmatch⟩) hnone
  case overrideUpsert =>
    split at h
    · rename_i hfound
      cases h
      constructor <;> simp [Stmt.featureFlagOverridesAfter, Stmt.nonceAfter, hfound] <;> rfl
    · rename_i hfound
      split at h
      · cases h
      · cases h
        constructor <;> simp [Stmt.featureFlagOverridesAfter, Stmt.nonceAfter, hfound] <;> rfl
  all_goals (try (rw [(require_ok h).1]; constructor <;> rfl))
  all_goals (repeat' split at h) <;> first | (cases h; constructor <;> rfl) | cases h

inductive UserStep (k : Id) : Stmt → User → User → Prop where
  | same (l : Stmt) (u : User) : UserStep k l u u
  | update (d : UserPatch) (u : User) : UserStep k (.userUpdate k d) u (d.apply u)
  | kill (d : UserPatch) (u : User) :
      UserStep k (.killSessions k d) u { d.apply u with tokenVersion := u.tokenVersion + 1 }
  | reuse (u : User) : UserStep k (.reuseDetected k) u { u with tokenVersion := u.tokenVersion + 1 }

/-- A refresh token keeps its digest and its user, and is never un-revoked. -/
structure TokenStep (t t' : RefreshToken) : Prop where
  token : t'.token = t.token
  userId : t'.userId = t.userId
  revoked : t.revoked = true → t'.revoked = true

theorem TokenStep.refl (t : RefreshToken) : TokenStep t t := ⟨rfl, rfl, id⟩

theorem TokenStep.trans {t₁ t₂ t₃ : RefreshToken} (h₁ : TokenStep t₁ t₂) (h₂ : TokenStep t₂ t₃) :
    TokenStep t₁ t₃ :=
  ⟨h₂.token.trans h₁.token, h₂.userId.trans h₁.userId, fun h => h₂.revoked (h₁.revoked h)⟩

theorem TokenStep.revoke (t : RefreshToken) (now : Time) :
    TokenStep t { t with revoked := true, updatedAt := now } := ⟨rfl, rfl, fun _ => rfl⟩

namespace Stmt.Effect

variable {l : Stmt} {w w' : World}

theorem nonce_le (h : l.Effect w w') : w.nonce ≤ w'.nonce := by
  rw [h.nonce]
  unfold Stmt.nonceAfter
  repeat' split
  all_goals omega

theorem now_le (h : l.Effect w w') : w.now ≤ w'.now := by
  rw [h.now]
  unfold Stmt.nowAfter
  split
  · exact Nat.le_add_right _ _
  · exact Nat.le_refl _

theorem user_forth (h : l.Effect w w') {k : Id} {u : User} (hk : w.users.get? k = some u)
    (hl : l ≠ .userDelete k) : ∃ u', w'.users.get? k = some u' ∧ UserStep k l u u' := by
  rw [h.users]
  unfold Stmt.usersAfter
  split
  · exact ⟨u, Table.get?_insert_of_some hk, .same _ _⟩
  · rename_i id d
    by_cases hid : k = id
    · subst hid
      exact ⟨d.apply u, by simp [hk], .update d u⟩
    · exact ⟨u, by simp [hid, hk], .same _ _⟩
  · rename_i id
    have hid : k ≠ id := fun heq => hl (by rw [heq])
    exact ⟨u, by simp [hid, hk], .same _ _⟩
  · rename_i id d
    by_cases hid : k = id
    · subst hid
      exact ⟨_, by simp [hk], .kill d u⟩
    · exact ⟨u, by simp [hid, hk], .same _ _⟩
  · rename_i id
    by_cases hid : k = id
    · subst hid
      exact ⟨_, by simp [hk], .reuse u⟩
    · exact ⟨u, by simp [hid, hk], .same _ _⟩
  · exact ⟨u, hk, .same _ _⟩

theorem user_back (h : l.Effect w w') {k : Id} {u' : User} (hk : w'.users.get? k = some u') :
    (∃ u, w.users.get? k = some u ∧ UserStep k l u u') ∨
      ∃ x, l = .userCreate x ∧ k = w.nonce ∧ u' = { x with createdAt := w.now } := by
  cases hu : w.users.get? k with
  | some u =>
    by_cases hl : l = .userDelete k
    · rw [h.users, hl] at hk
      simp [Stmt.usersAfter] at hk
    · obtain ⟨u'', hu'', hstep⟩ := h.user_forth hu hl
      rw [hk] at hu''
      cases hu''
      exact .inl ⟨u, rfl, hstep⟩
  | none =>
    rw [h.users] at hk
    unfold Stmt.usersAfter at hk
    split at hk
    · rename_i x
      rcases Table.get?_insert_cases hk with hold | ⟨rfl, rfl⟩
      · rw [hu] at hold; cases hold
      · exact .inr ⟨x, rfl, rfl, rfl⟩
    all_goals simp [hu] at hk

theorem tokens (h : l.Effect w w') (hl : ∀ t, l ≠ .refreshTokenCreate t) (k : Id) :
    w'.refreshTokens.get? k = (w.refreshTokens.get? k).bind (fun t =>
      if l.erasesToken t then none else some (if l.revokesToken k t then
        { t with revoked := true, updatedAt := w.now } else t)) := by
  rw [h.refreshTokens]
  cases l <;> simp only [Stmt.refreshTokensAfter, Stmt.erasesToken, Stmt.revokesToken,
    Table.get?_updateWhere, Table.get?_update, Table.get?_eraseWhere] <;>
    cases hk : w.refreshTokens.get? k <;> simp
  case refreshTokenCreate.none t => exact absurd rfl (hl t)
  case refreshTokenCreate.some t _ => exact absurd rfl (hl t)
  all_goals split <;> rfl

theorem token_forth (h : l.Effect w w') {k : Id} {t : RefreshToken}
    (hk : w.refreshTokens.get? k = some t) (hl : l.erasesToken t = false) :
    ∃ t', w'.refreshTokens.get? k = some t' ∧ TokenStep t t' := by
  by_cases hc : ∃ x, l = .refreshTokenCreate x
  · obtain ⟨x, rfl⟩ := hc
    rw [h.refreshTokens]
    exact ⟨t, Table.get?_insert_of_some hk, .refl t⟩
  · rw [h.tokens (fun x hx => hc ⟨x, hx⟩) k, hk]
    simp only [Option.bind_some, hl, Bool.false_eq_true, if_false]
    split
    · exact ⟨_, rfl, .revoke t w.now⟩
    · exact ⟨_, rfl, .refl t⟩

theorem token_back (h : l.Effect w w') {k : Id} {t' : RefreshToken}
    (hk : w'.refreshTokens.get? k = some t') :
    (∃ t, w.refreshTokens.get? k = some t ∧ TokenStep t t') ∨
      ∃ x, l = .refreshTokenCreate x ∧ k = w.nonce ∧
        t' = { x with createdAt := w.now, updatedAt := w.now } := by
  by_cases hc : ∃ x, l = .refreshTokenCreate x
  · obtain ⟨x, rfl⟩ := hc
    rw [h.refreshTokens] at hk
    rcases Table.get?_insert_cases hk with hold | ⟨hkey, hrow⟩
    · exact .inl ⟨t', hold, .refl t'⟩
    · exact .inr ⟨x, rfl, hkey, hrow⟩
  · rw [h.tokens (fun x hx => hc ⟨x, hx⟩) k] at hk
    obtain ⟨t, ht, hrow⟩ := Option.bind_eq_some_iff.mp hk
    refine .inl ⟨t, ht, ?_⟩
    split at hrow
    · cases hrow
    · split at hrow
      · cases hrow; exact .revoke _ w.now
      · cases hrow; exact .refl _

end Stmt.Effect

/-- Ids below the supply: a row that is created later never reuses the id of a row
that was once there. -/
structure World.Fresh (w : World) : Prop where
  users : ∀ k u, w.users.get? k = some u → k < w.nonce
  refreshTokens : ∀ k t, w.refreshTokens.get? k = some t → k < w.nonce

theorem World.Fresh.exec {l : Stmt} {w w' : World} (hw : w.Fresh) (h : l.exec w = .ok w') :
    w'.Fresh := by
  have heff := exec_effect h
  have hle := heff.nonce_le
  refine ⟨fun k u hk => ?_, fun k t hk => ?_⟩
  · rcases heff.user_back hk with ⟨u₀, hu₀, _⟩ | ⟨x, rfl, rfl, _⟩
    · exact Nat.lt_of_lt_of_le (hw.users k u₀ hu₀) hle
    · rw [heff.nonce]; exact Nat.lt_succ_self _
  · rcases heff.token_back hk with ⟨t₀, ht₀, _⟩ | ⟨x, rfl, rfl, _⟩
    · exact Nat.lt_of_lt_of_le (hw.refreshTokens k t₀ ht₀) hle
    · rw [heff.nonce]; exact Nat.lt_succ_self _

theorem User.clash_comm (u v : User) : u.clash v = v.clash u := by
  have hsome : ∀ {α : Type} [DecidableEq α] (a b : Option α),
      (a.isSome && a == b) = (b.isSome && b == a) := by
    intro α _ a b
    cases a <;> cases b <;> simp [eq_comm]
  unfold User.clash
  rw [hsome u.googleId, hsome u.pendingEmail, hsome u.emailVerificationToken,
    hsome u.passwordResetToken, Bool.and_comm u.live,
    show (u.email == v.email) = (v.email == u.email) from Bool.beq_comm]

def World.Unclashed (w : World) : Prop :=
  ∀ i j u v, w.users.get? i = some u → w.users.get? j = some v → i ≠ j → u.clash v = false

/-- Replacing one row keeps the indexes when the new row clashes with no other. -/
theorem World.Unclashed.update {w : World} (hw : w.Unclashed) {id : Id} {f : User → User} {u : User}
    (hu : w.users.get? id = some u)
    (hclash : ∀ k v, w.users.get? k = some v → k ≠ id → (f u).clash v = false) :
    ({ w with users := w.users.update id f } : World).Unclashed := by
  intro i j a b ha hb hij
  simp only [Table.get?_update] at ha hb
  split at ha
  · rename_i hi
    subst hi
    rw [if_neg (Ne.symm hij)] at hb
    rw [hu] at ha
    cases ha
    exact hclash j b hb (Ne.symm hij)
  · rename_i hi
    split at hb
    · rename_i hj
      subst hj
      rw [hu] at hb
      cases hb
      rw [User.clash_comm]
      exact hclash i a ha hi
    · exact hw i j a b ha hb hij

theorem World.Unclashed.insert {w : World} (hw : w.Unclashed) {x : User} (k : Id)
    (hclash : ∀ i v, w.users.get? i = some v → x.clash v = false) :
    ({ w with users := w.users.insert k x } : World).Unclashed := by
  intro i j a b ha hb hij
  rcases Table.get?_insert_cases ha with hai | ⟨rfl, rfl⟩
  · rcases Table.get?_insert_cases hb with hbj | ⟨rfl, rfl⟩
    · exact hw i j a b hai hbj hij
    · rw [User.clash_comm]
      exact hclash i a hai
  · rcases Table.get?_insert_cases hb with hbj | ⟨rfl, _⟩
    · exact hclash j b hbj
    · exact absurd rfl hij

theorem World.Unclashed.exec {l : Stmt} {w w' : World} (hw : w.Unclashed) (h : l.exec w = .ok w') :
    w'.Unclashed := by
  have heff := (exec_effect h).users
  cases l with
  | userCreate x =>
    obtain ⟨rfl, hclash⟩ := userCreate_ok h
    exact hw.insert (x := { x with createdAt := w.now }) w.nonce hclash
  | userUpdate id d =>
    obtain ⟨rfl, u, hu, hclash⟩ := setUser_ok h
    exact hw.update hu hclash
  | userDelete id =>
    intro i j a b ha hb
    rw [heff] at ha hb
    simp only [Stmt.usersAfter, Table.get?_erase] at ha hb
    split at ha
    · cases ha
    · split at hb
      · cases hb
      · exact hw i j a b ha hb
  | killSessions id d =>
    simp only [Stmt.exec] at h
    split at h
    · cases h
    · rename_i hset
      cases h
      obtain ⟨rfl, u, hu, hclash⟩ := setUser_ok hset
      exact hw.update hu hclash
  | reuseDetected id =>
    simp only [Stmt.exec] at h
    split at h
    · cases h
    · rename_i hset
      cases h
      obtain ⟨rfl, u, hu, hclash⟩ := setUser_ok hset
      exact hw.update hu hclash
  | _ =>
    intro i j a b ha hb
    rw [heff] at ha hb
    exact hw i j a b ha hb

def World.TokensUnique (w : World) : Prop :=
  ∀ k k' t t', w.refreshTokens.get? k = some t → w.refreshTokens.get? k' = some t' →
    t.token = t'.token → k = k'

theorem World.TokensUnique.exec {l : Stmt} {w w' : World} (hw : w.TokensUnique)
    (h : l.exec w = .ok w') :
    w'.TokensUnique := by
  have heff := exec_effect h
  by_cases hl : ∃ x, l = .refreshTokenCreate x
  · obtain ⟨x, rfl⟩ := hl
    simp only [Stmt.exec] at h
    split at h
    · cases h
    · split at h
      · cases h
      · rename_i hany
        have hnew := Table.any_eq_false.mp (Bool.not_eq_true _ ▸ hany)
        simp only [beq_eq_false_iff_ne] at hnew
        cases h
        intro k k' t t' hk hk' htoken
        rcases Table.get?_insert_cases hk with hold | ⟨rfl, rfl⟩
        · rcases Table.get?_insert_cases hk' with hold' | ⟨rfl, rfl⟩
          · exact hw k k' t t' hold hold' htoken
          · exact absurd htoken.symm (hnew k t hold)
        · rcases Table.get?_insert_cases hk' with hold' | ⟨rfl, rfl⟩
          · exact absurd htoken (hnew k' t' hold')
          · rfl
  · have hback : ∀ k t, w'.refreshTokens.get? k = some t →
        ∃ t₀, w.refreshTokens.get? k = some t₀ ∧ TokenStep t₀ t := by
      intro k t hk
      rcases heff.token_back hk with hold | ⟨x, heq, _⟩
      · exact hold
      · exact absurd ⟨x, heq⟩ hl
    intro k k' t t' hk hk' htoken
    obtain ⟨t₀, hk₀, hstep⟩ := hback k t hk
    obtain ⟨t₁, hk₁, hstep'⟩ := hback k' t' hk'
    exact hw k k' t₀ t₁ hk₀ hk₁ (by rw [← hstep.token, ← hstep'.token, htoken])

section Rules

variable {α β : Type} {post : Except Err β → World → Prop} {w : World}

theorem runs_query_bind {view : World → α} {k : α → Req β} :
    Req.runs ((query view).bind k) w = (k (view w)).runs w := rfl

theorem runs_date_bind {k : Time → Req β} : Req.runs (date.bind k) w = (k w.now).runs w := rfl

theorem ends_query_bind {view : World → α} {k : α → Req β} :
    ((query view).bind k).Ends Stmt.exec post w ↔ (k (view w)).Ends Stmt.exec post w := Iff.rfl

theorem ends_date_bind {k : Time → Req β} :
    (date.bind k).Ends Stmt.exec post w ↔ (k w.now).Ends Stmt.exec post w := Iff.rfl

theorem ends_randomBytes_bind {k : Nat → Req β} :
    (randomBytes.bind k).Ends Stmt.exec post w ↔
      (k w.nonce).Ends Stmt.exec post { w with nonce := w.nonce + 1 } := Iff.rfl

theorem ends_send_bind {l : Stmt} {view : World → α} {k : α → Req β} :
    ((send l view).bind k).Ends Stmt.exec post w ↔
      match l.exec w with
      | .ok w' => (k (view w)).Ends Stmt.exec post w'
      | .error e => post (.error e) w := by
  rw [Prog.ends_bind, send, Prog.ends_send]
  cases l.exec w <;> rfl

theorem ends_execute_bind {l : Stmt} {k : Unit → Req β} :
    ((execute l).bind k).Ends Stmt.exec post w ↔
      match l.exec w with
      | .ok w' => (k ()).Ends Stmt.exec post w'
      | .error e => post (.error e) w := ends_send_bind

theorem ends_tryCatch_bind {l : Stmt} {view : World → α} {c : Err → Req α} {k : α → Req β} :
    (((send l view).tryCatch c).bind k).Ends Stmt.exec post w ↔
      match l.exec w with
      | .ok w' => (k (view w)).Ends Stmt.exec post w'
      | .error e => ((c e).bind k).Ends Stmt.exec post w := by
  rw [Prog.ends_bind, Prog.ends_tryCatch, send, Prog.ends_send]
  cases l.exec w with
  | ok w' => rfl
  | error e => exact Prog.ends_bind.symm

theorem ends_tryCatch_execute_bind {l : Stmt} {c : Err → Req Unit} {k : Unit → Req β} :
    (((execute l).tryCatch c).bind k).Ends Stmt.exec post w ↔
      match l.exec w with
      | .ok w' => (k ()).Ends Stmt.exec post w'
      | .error e => ((c e).bind k).Ends Stmt.exec post w := ends_tryCatch_bind

theorem Ends.bind {p : Req α} {k : α → Req β} {Q : Except Err α → World → Prop}
    (hp : p.Ends Stmt.exec Q w)
    (hok : ∀ a w', Q (.ok a) w' → (k a).Ends Stmt.exec post w')
    (herr : ∀ e w', Q (.error e) w' → post (.error e) w') :
    (p.bind k).Ends Stmt.exec post w := by
  rw [Prog.ends_bind]
  refine hp.weaken fun r w' hr => ?_
  cases r with
  | ok a => exact hok a w' hr
  | error e => exact herr e w' hr

end Rules

section Traces

variable {α β : Type} {post : Except Err β → List Stmt → World → Prop} {w : World}

theorem traces_query_bind {view : World → α} {k : α → Req β} :
    ((query view).bind k).Traces Stmt.exec post w ↔
      (k (view w)).Traces Stmt.exec (fun r ls => post r (.read :: ls)) w := Iff.rfl

theorem traces_date_bind {k : Time → Req β} :
    (date.bind k).Traces Stmt.exec post w ↔
      (k w.now).Traces Stmt.exec (fun r ls => post r (.read :: ls)) w := Iff.rfl

theorem traces_randomBytes_bind {k : Nat → Req β} :
    (randomBytes.bind k).Traces Stmt.exec post w ↔
      (k w.nonce).Traces Stmt.exec (fun r ls => post r (.random :: ls))
        { w with nonce := w.nonce + 1 } := Iff.rfl

theorem traces_execute_bind {l : Stmt} {k : Unit → Req β} :
    ((execute l).bind k).Traces Stmt.exec post w ↔
      match l.exec w with
      | .ok w' => (k ()).Traces Stmt.exec (fun r ls => post r (l :: ls)) w'
      | .error e => post (.error e) [] w := by
  rw [execute, Prog.send_bind, Prog.traces_stmt]
  cases l.exec w <;> rfl

end Traces

end SaasBackend
