import SaasBackend.ForeignKeys
import SaasBackend.MembershipOrigins
import SaasBackend.Backend

set_option autoImplicit false

namespace SaasBackend
open Keyed Handler

/-- Every user, organization, plan or flag that a row refers to is there. -/
structure World.Referential (w : World) : Prop where
  tokenUser : w.refreshTokens.Refers (fun t => some t.userId) w.users
  challengeUser : w.twoFactorChallenges.Refers (fun c => some c.userId) w.users
  owner : w.organizations.Refers (fun o => some o.ownerId) w.users
  memberUser : w.members.Refers (fun m => some m.userId) w.users
  memberOrganization : w.members.Refers (fun m => some m.organizationId) w.organizations
  inviter : w.invitations.Refers (fun i => some i.inviterId) w.users
  invitee : w.invitations.Refers OrganizationInvitation.inviteeId w.users
  invitationOrganization :
    w.invitations.Refers (fun i => some i.organizationId) w.organizations
  projectCreator : w.projects.Refers (fun p => some p.createdById) w.users
  projectOrganization : w.projects.Refers (fun p => some p.organizationId) w.organizations
  subscriptionUser : w.subscriptions.Refers Subscription.userId w.users
  subscriptionOrganization : w.subscriptions.Refers Subscription.organizationId w.organizations
  subscriptionPlan : w.subscriptions.Refers (fun s => some s.planId) w.plans
  apiKeyUser : w.apiKeys.Refers (fun k => some k.userId) w.users
  overrideFlag : w.featureFlagOverrides.Refers (fun o => some o.featureFlagId) w.featureFlags
  overrideOrganization :
    w.featureFlagOverrides.Refers (fun o => some o.organizationId) w.organizations

structure Backend.Referential (b : Backend) : Prop where
  world : b.world.Referential
  notificationUser : b.notifications.Refers (fun n => some n.userId) b.world.users
  preferenceUser : b.notificationPreferences.Refers (fun p => some p.userId) b.world.users
  auditUser : b.auditLogs.Refers AuditLog.userId b.world.users

section Deletion

variable {w : World}

theorem World.cascadesOrg_owner {id orgId : Id} {o : Organization}
    (ho : w.organizations.get? orgId = some o) :
    w.cascadesOrg id orgId = (o.ownerId == id) := by
  simp [World.cascadesOrg, ho]

theorem owner_spared {id orgId : Id} {o : Organization}
    (hkept : w.cascadesOrg id orgId = false) (ho : w.organizations.get? orgId = some o) :
    (o.ownerId == id) = false := by
  rw [← World.cascadesOrg_owner ho, hkept]

/-- The rows of `t` that name the user go with the row of the user. -/
theorem user_cascades {α : Type} {t : Table α} {fk : α → Option Id} {id : Id}
    (h : t.Refers fk w.users) {p : Nat → α → Bool}
    (hp : ∀ k a, p k a = false → fk a ≠ some id) :
    (t.eraseWhere p).Refers fk (w.users.erase id) := by
  refine h.cascade_erase fun k a i r hkept hi _ => ?_
  have hne : i ≠ id := fun heq => hp k a hkept (by rw [hi, heq])
  simpa using hne

theorem organization_cascades {α : Type} {t : Table α} {fk : α → Option Id} {id : Id}
    (h : t.Refers fk w.organizations) {p : Nat → α → Bool}
    (hp : ∀ k a i, p k a = false → fk a = some i → w.cascadesOrg id i = false) :
    (t.eraseWhere p).Refers fk (w.organizations.eraseWhere (fun _ o => o.ownerId == id)) :=
  h.cascade_erase fun k a i _ hkept hi ho => owner_spared (hp k a i hkept hi) ho

theorem World.Referential.deleteUser (hw : w.Referential) (id : Id) :
    (w.deleteUser id).Referential where
  tokenUser := user_cascades hw.tokenUser fun k t h => by simpa using h
  challengeUser := user_cascades hw.challengeUser fun k c h => by simpa using h
  owner := user_cascades hw.owner fun k o h => by simpa using h
  memberUser := user_cascades hw.memberUser fun k m h => by simp at h; simpa using h.1
  memberOrganization := organization_cascades hw.memberOrganization fun k m i h hi => by
    simp at h hi
    rw [← hi, h.2]
  inviter := hw.inviter.cascade fun k i j u h hu => by
    split at h
    · cases h
    · rename_i hkept
      cases h
      simp at hkept hu
      exact ⟨by simp [hu], fun _ _ => by simpa [← hu] using hkept.1⟩
  invitee := hw.invitee.cascade fun k i j u h hu => by
    split at h
    · cases h
    · cases h
      -- onDelete: SetNull
      dsimp only at hu
      split at hu
      · cases hu
      · rename_i hother
        exact ⟨hu, fun _ _ => by simpa [hu] using hother⟩
  invitationOrganization := hw.invitationOrganization.cascade fun k i j o h ho => by
    split at h
    · cases h
    · rename_i hkept
      cases h
      simp at hkept ho
      exact ⟨by simp [ho], fun r hr => owner_spared (by rw [← ho, hkept.2]) hr⟩
  projectCreator := user_cascades hw.projectCreator fun k p h => by simp at h; simpa using h.1
  projectOrganization := organization_cascades hw.projectOrganization fun k p i h hi => by
    simp at h hi
    rw [← hi, h.2]
  subscriptionUser := user_cascades hw.subscriptionUser fun k s h => by simp at h; exact h.1
  subscriptionOrganization := organization_cascades hw.subscriptionOrganization
    fun k s i h hi => by
      simp [hi] at h
      exact h.2
  subscriptionPlan := hw.subscriptionPlan.eraseWhere
  apiKeyUser := user_cascades hw.apiKeyUser fun k a h => by simpa using h
  overrideFlag := hw.overrideFlag.eraseWhere
  overrideOrganization := organization_cascades hw.overrideOrganization fun k o i h hi => by
    simp at hi
    rw [← hi]
    exact h

end Deletion

section Statements

variable {l : Stmt} {w w' : World}

theorem users_kept (h : l.Effect w w') (hl : ∀ id, l ≠ .userDelete id) :
    w.users.Kept w'.users := by
  intro k hk
  obtain ⟨u, hu⟩ := Option.isSome_iff_exists.mp hk
  obtain ⟨u', hu', _⟩ := h.user_forth hu (hl k)
  rw [hu']
  rfl

theorem organizations_kept (h : l.Effect w w') (hl : ∀ id, l ≠ .userDelete id) :
    w.organizations.Kept w'.organizations := by
  rw [h.organizations]
  cases l with
  | userDelete id => exact absurd rfl (hl id)
  | organizationCreate name slug ownerId => exact Table.kept_insert _ _ _
  | organizationUpdate id d => exact Table.kept_update _ _ _
  | transferOwnership orgId new cur => exact Table.kept_update _ _ _
  | _ => exact .refl _

theorem refreshTokenCreate_user {t : RefreshToken}
    (h : (Stmt.refreshTokenCreate t).exec w = .ok w') : w.hasUser t.userId = true := by
  simp only [Stmt.exec] at h
  split at h <;> simp_all

theorem challengeCreate_user {c : TwoFactorChallenge}
    (h : (Stmt.challengeCreate c).exec w = .ok w') : w.hasUser c.userId = true := by
  simp only [Stmt.exec] at h
  split at h <;> simp_all

theorem apiKeyCreate_user {k : ApiKey}
    (h : (Stmt.apiKeyCreate k).exec w = .ok w') : w.hasUser k.userId = true := by
  simp only [Stmt.exec] at h
  split at h <;> simp_all

theorem projectCreate_refers {p : Project} (h : (Stmt.projectCreate p).exec w = .ok w') :
    w.hasOrganization p.organizationId = true ∧ w.hasUser p.createdById = true := by
  simp only [Stmt.exec] at h
  split at h <;> simp_all

theorem invitationCreate_refers {i : OrganizationInvitation}
    (h : (Stmt.invitationCreate i).exec w = .ok w') :
    w.hasOrganization i.organizationId = true ∧ w.hasUser i.inviterId = true ∧
      i.inviteeId.all w.hasUser = true := by
  simp only [Stmt.exec] at h
  split at h
  · cases h
  · rename_i hrefs
    simp only [Bool.or_eq_true, Bool.not_eq_true', not_or, Bool.not_eq_false] at hrefs
    exact ⟨hrefs.1.1, hrefs.1.2, hrefs.2⟩

theorem organizationCreate_owner {name slug : String} {ownerId : Id}
    (h : (Stmt.organizationCreate name slug ownerId).exec w = .ok w') :
    w.hasUser ownerId = true := by
  simp only [Stmt.exec] at h
  split at h
  · cases h
  · split at h <;> simp_all

structure World.Holds (w : World) (s : Subscription) : Prop where
  plan : w.hasPlan s.planId = true
  user : ∀ i, s.userId = some i → w.hasUser i = true
  organization : ∀ i, s.organizationId = some i → w.hasOrganization i = true

theorem subscriptionCreate_holds {s : Subscription}
    (h : (Stmt.subscriptionCreate s).exec w = .ok w') : w.Holds s := by
  simp only [Stmt.exec] at h
  repeat' split at h
  · cases h
  · cases h
  · cases h
  · rename_i hrefs
    simp only [Bool.or_eq_true, Bool.not_eq_true', not_or, Bool.not_eq_false,
      Option.all_eq_true] at hrefs
    exact ⟨hrefs.1.1, hrefs.1.2, hrefs.2⟩

theorem subscriptionApply_holds {s : Subscription} {stamp : Time}
    (h : (Stmt.subscriptionApply s stamp).exec w = .ok w') :
    (Stmt.subscriptionApply s stamp).subscriptionsAfter w = w.subscriptions ∨ w.Holds s := by
  have heff := exec_effect h
  simp only [Stmt.exec] at h
  repeat' split at h
  · cases h
  · cases h
  · rename_i hrefs
    simp only [Bool.or_eq_true, Bool.not_eq_true', not_or, Bool.not_eq_false,
      Option.all_eq_true] at hrefs
    exact .inr ⟨hrefs.1.1, hrefs.1.2, hrefs.2⟩
  · cases h
    exact .inl heff.subscriptions.symm

theorem overrideUpsert_refers {flagId orgId : Id} {enabled : Bool} {value : Json}
    (h : (Stmt.overrideUpsert flagId orgId enabled value).exec w = .ok w')
    (hnone : w.overrideOf flagId orgId = none) :
    (w.featureFlags.get? flagId).isSome = true ∧ w.hasOrganization orgId = true := by
  simp only [Stmt.exec, hnone] at h
  split at h
  · cases h
  · simp_all [Option.isSome_iff_ne_none]

theorem tokens_refer (hw : w.Referential) (h : l.exec w = .ok w') :
    (l.refreshTokensAfter w).Refers (fun t => some t.userId) w.users := by
  have hrevoked : ∀ p, (w.refreshTokens.updateWhere p (fun t =>
      { t with revoked := true, updatedAt := w.now })).Refers (fun t => some t.userId) w.users :=
    fun p => hw.tokenUser.updateWhere fun _ => rfl
  cases l with
  | refreshTokenCreate t =>
    refine hw.tokenUser.insert fun i hi => ?_
    cases hi
    exact refreshTokenCreate_user h
  | userDelete id => exact hw.tokenUser.eraseWhere
  | refreshTokenCleanup before revokedBefore => exact hw.tokenUser.eraseWhere
  | killSessions id d => exact hrevoked _
  | refreshTokenRevokeAll userId => exact hrevoked _
  | reuseDetected id => exact hrevoked _
  | refreshTokenRotate id => exact hrevoked _
  | refreshTokenExpire id => exact hrevoked _
  | refreshTokenRevoke id => exact hrevoked _
  | refreshTokenRevokeByToken token userId => exact hrevoked _
  | _ => exact hw.tokenUser

theorem challenges_refer (hw : w.Referential) (h : l.exec w = .ok w') :
    (l.twoFactorChallengesAfter w).Refers (fun c => some c.userId) w.users := by
  cases l with
  | challengeCreate c =>
    refine hw.challengeUser.insert fun i hi => ?_
    cases hi
    exact challengeCreate_user h
  | userDelete id => exact hw.challengeUser.eraseWhere
  | challengeCleanup before => exact hw.challengeUser.eraseWhere
  | challengeDelete id => exact hw.challengeUser.eraseWhere
  | challengeAttempt id => exact hw.challengeUser.update fun _ => rfl
  | challengeClaim id => exact hw.challengeUser.updateWhere fun _ => rfl
  | _ => exact hw.challengeUser

theorem membership_user (hw : w.Referential) {orgId userId k : Id} {m : OrganizationMember}
    (hm : w.membership orgId userId = some (k, m)) : w.hasUser userId = true := by
  obtain ⟨hk, hp⟩ := Table.find?_some hm
  simp only [Bool.and_eq_true, beq_iff_eq] at hp
  exact hw.memberUser k m userId hk (congrArg some hp.2)

theorem owners_refer (hw : w.Referential) (h : l.exec w = .ok w') :
    (l.organizationsAfter w).Refers (fun o => some o.ownerId) w.users := by
  cases l with
  | userDelete id => exact hw.owner.eraseWhere
  | organizationCreate name slug ownerId =>
    refine hw.owner.insert fun i hi => ?_
    cases hi
    exact organizationCreate_owner h
  | organizationUpdate id d => exact hw.owner.update fun _ => rfl
  | transferOwnership orgId newOwnerId currentOwnerId =>
    -- the new owner is a member, so there is such a user
    have hnew : w.hasUser newOwnerId = true := by
      simp only [Stmt.exec] at h
      repeat' split at h
      · cases h
      · rename_i hnew _
        exact membership_user hw hnew
      · cases h
    refine hw.owner.mapRows fun k a b i hb hi => ?_
    cases hb
    cases hi
    split
    · exact .inr hnew
    · exact .inl rfl
  | _ => exact hw.owner

theorem swapRoles_refers {β : Type} {fk : OrganizationMember → Option Id} {s : Table β}
    (hfk : ∀ m role, fk { m with role := role } = fk m) (h : w.members.Refers fk s)
    (orgId newOwnerId currentOwnerId : Id) :
    (Stmt.swapRoles w orgId newOwnerId currentOwnerId).Refers fk s := by
  unfold Stmt.swapRoles
  split
  · exact (h.update fun m => hfk m _).update fun m => hfk m _
  · exact h

theorem members_refer (hw : w.Referential) (h : l.exec w = .ok w') :
    (l.membersAfter w).Refers (fun m => some m.userId) w.users := by
  cases l with
  | userDelete id => exact hw.memberUser.eraseWhere
  | organizationCreate name slug ownerId =>
    refine hw.memberUser.insert fun i hi => ?_
    cases hi
    exact organizationCreate_owner h
  | transferOwnership orgId new cur => exact swapRoles_refers (fun _ _ => rfl) hw.memberUser _ _ _
  | memberUpdate id role => exact hw.memberUser.update fun _ => rfl
  | memberDelete id => exact hw.memberUser.eraseWhere
  | invitationAccept id d orgId userId role =>
    refine hw.memberUser.insert fun i hi => ?_
    cases hi
    exact (invitationAccept_ok h).2.2.2.2
  | _ => exact hw.memberUser

theorem memberships_refer (hw : w.Referential) (h : l.exec w = .ok w')
    (hl : ∀ id, l ≠ .userDelete id) (hfresh : w.organizations.get? w.nonce = none) :
    (l.membersAfter w).Refers (fun m => some m.organizationId) w'.organizations := by
  have hkept := organizations_kept (exec_effect h) hl
  have hold := hw.memberOrganization.kept hkept
  cases l with
  | userDelete id => exact absurd rfl (hl id)
  | organizationCreate name slug ownerId =>
    refine hold.insert fun i hi => ?_
    cases hi
    rw [(exec_effect h).organizations]
    simp [Stmt.organizationsAfter, Table.get?_insert_self _ hfresh]
  | transferOwnership orgId new cur => exact swapRoles_refers (fun _ _ => rfl) hold _ _ _
  | memberUpdate id role => exact hold.update fun _ => rfl
  | memberDelete id => exact hold.eraseWhere
  | invitationAccept id d orgId userId role =>
    refine hold.insert fun i hi => ?_
    cases hi
    exact hkept _ (invitationAccept_ok h).2.2.2.1
  | _ => exact hold

def Stmt.invitationPatch : Stmt → Option InvitationPatch
  | .invitationUpdate _ d | .invitationAccept _ d _ _ _ => some d
  | _ => none

theorem invitationPatch_invitee {d : InvitationPatch} (h : l.exec w = .ok w')
    (hl : l.invitationPatch = some d) : d.inviteeId.all w.hasUser = true := by
  cases l with
  | invitationUpdate id d' => exact Option.some.inj hl ▸ (invitationUpdate_ok h).2.1
  | invitationAccept id d' orgId userId role =>
    exact Option.some.inj hl ▸ (invitationAccept_ok h).2.1
  | _ => cases hl

theorem invitations_refer {β : Type} {fk : OrganizationInvitation → Option Id} {s : Table β}
    (hl : ∀ id, l ≠ .userDelete id)
    (hupdate : ∀ d, l.invitationPatch = some d → ∀ i t k,
      fk { InvitationPatch.apply d i with updatedAt := t } = some k → fk i = some k ∨
      (s.get? k).isSome = true)
    (hcreate : ∀ i, l = .invitationCreate i → ∀ k, fk i = some k → (s.get? k).isSome = true)
    (htimes : ∀ i t t', fk { i with createdAt := t, updatedAt := t' } = fk i)
    (hold : w.invitations.Refers fk s) : (l.invitationsAfter w).Refers fk s := by
  have hpatched : ∀ id d, l.invitationPatch = some d → (w.invitations.update id
      (fun i => { InvitationPatch.apply d i with updatedAt := w.now })).Refers fk s := by
    intro id d hd
    refine hold.mapRows fun k a b i hb hi => ?_
    cases hb
    split at hi
    · exact hupdate d hd a w.now i hi
    · exact .inl hi
  cases l with
  | userDelete id => exact absurd rfl (hl id)
  | invitationCreate i =>
    exact hold.insert fun k hk => hcreate i rfl k ((htimes i _ _).symm.trans hk)
  | invitationUpdate id d => exact hpatched id d rfl
  | invitationAccept id d orgId userId role => exact hpatched id d rfl
  | invitationCleanup before => exact hold.eraseWhere
  | _ => exact hold

theorem projects_refer {β : Type} {fk : Project → Option Id} {s : Table β}
    (hupdate : ∀ d p t, fk { ProjectPatch.apply d p with updatedAt := t } = fk p)
    (hcreate : ∀ p, l = .projectCreate p → ∀ k, fk p = some k → (s.get? k).isSome = true)
    (htimes : ∀ p t t', fk { p with createdAt := t, updatedAt := t' } = fk p)
    (hold : w.projects.Refers fk s) : (l.projectsAfter w).Refers fk s := by
  cases l with
  | userDelete id => exact hold.eraseWhere
  | projectCreate p =>
    exact hold.insert fun k hk => hcreate p rfl k ((htimes p _ _).symm.trans hk)
  | projectUpdate id d => exact hold.update fun p => hupdate d p _
  | _ => exact hold

theorem subscriptions_refer {β : Type} {fk : Subscription → Option Id} {s : Table β}
    (hstatus : ∀ r status at_, fk { r with status := status, canceledAt := at_ } = fk r)
    (htime : ∀ r t, fk { r with createdAt := t } = fk r)
    (hholds : ∀ r, w.Holds r → ∀ k, fk r = some k → (s.get? k).isSome = true)
    (h : l.exec w = .ok w') (hold : w.subscriptions.Refers fk s) :
    (l.subscriptionsAfter w).Refers fk s := by
  cases l with
  | userDelete id => exact hold.eraseWhere
  | subscriptionCreate r =>
    exact hold.insert fun k hk =>
      hholds r (subscriptionCreate_holds h) k ((htime r _).symm.trans hk)
  | subscriptionApply r stamp =>
    rcases subscriptionApply_holds h with hsame | hnew
    · rw [hsame]
      exact hold
    · refine hold.mapRows fun k a b i hb hi => ?_
      cases hb
      split at hi
      · exact .inr (hholds r hnew i ((htime r _).symm.trans hi))
      · exact .inl hi
  | subscriptionDeleted sid instant => exact hold.updateWhere fun r => hstatus r _ _
  | subscriptionCancel ids instant => exact hold.updateWhere fun r => hstatus r _ _
  | _ => exact hold

theorem apiKeys_refer (hw : w.Referential) (h : l.exec w = .ok w') :
    (l.apiKeysAfter w).Refers (fun k => some k.userId) w.users := by
  cases l with
  | userDelete id => exact hw.apiKeyUser.eraseWhere
  | apiKeyCreate k =>
    refine hw.apiKeyUser.insert fun i hi => ?_
    cases hi
    exact apiKeyCreate_user h
  | apiKeyUpdate id d => exact hw.apiKeyUser.update fun _ => rfl
  | apiKeyTouch id instant => exact hw.apiKeyUser.update fun _ => rfl
  | _ => exact hw.apiKeyUser

theorem overrides_refer {β : Type} {fk : OrganizationFeatureFlag → Option Id} {s : Table β}
    (hupdate : ∀ (o : OrganizationFeatureFlag) (enabled : Bool) (value : Json) (t : Time),
      fk { o with enabled := enabled, value := value, updatedAt := t } = fk o)
    (hcreate : ∀ o enabled value,
      l = .overrideUpsert o.featureFlagId o.organizationId enabled value →
      w.overrideOf o.featureFlagId o.organizationId = none →
        ∀ k, fk o = some k → (s.get? k).isSome = true)
    (hold : w.featureFlagOverrides.Refers fk s) :
    (l.featureFlagOverridesAfter w).Refers fk s := by
  cases l with
  | userDelete id => exact hold.eraseWhere
  | flagDelete id => exact hold.eraseWhere
  | overrideDelete id => exact hold.eraseWhere
  | overrideUpsert flagId orgId enabled value =>
    simp only [Stmt.featureFlagOverridesAfter]
    split
    · exact hold.update fun o => hupdate o _ _ _
    · rename_i hnone
      exact hold.insert (hcreate _ enabled value rfl hnone)
  | _ => exact hold

theorem overrideFlags_refer (hw : w.Referential) (h : l.exec w = .ok w') :
    (l.featureFlagOverridesAfter w).Refers (fun o => some o.featureFlagId)
      (l.featureFlagsAfter w) := by
  have hcreate : ∀ (o : OrganizationFeatureFlag) enabled value,
      l = .overrideUpsert o.featureFlagId o.organizationId enabled value →
        w.overrideOf o.featureFlagId o.organizationId = none → ∀ k, some o.featureFlagId = some k →
          (w.featureFlags.get? k).isSome = true := by
    intro o enabled value hl hnone k hk
    cases hk
    exact (overrideUpsert_refers (hl ▸ h) hnone).1
  have hsame : (l.featureFlagOverridesAfter w).Refers (fun o => some o.featureFlagId)
      w.featureFlags := overrides_refer (fun _ _ _ _ => rfl) hcreate hw.overrideFlag
  cases l with
  | flagCreate f => exact hsame.kept (Table.kept_insert _ _ _)
  | flagUpdate id d => exact hsame.kept (Table.kept_update _ _ _)
  | flagDelete id =>
    refine hw.overrideFlag.cascade_erase fun k o i _ hkept hi _ => ?_
    cases hi
    exact hkept
  | _ => exact hsame

theorem World.Referential.exec (hw : w.Referential) (hdrawn : w.OrganizationsDrawn)
    (h : l.exec w = .ok w') : w'.Referential := by
  have heff := exec_effect h
  by_cases hl : ∃ id, l = .userDelete id
  · obtain ⟨id, rfl⟩ := hl
    simp only [Stmt.exec] at h
    rw [(require_ok h).1]
    exact hw.deleteUser id
  · have hl' : ∀ id, l ≠ .userDelete id := fun id heq => hl ⟨id, heq⟩
    have husers := users_kept heff hl'
    have horgs := organizations_kept heff hl'
    have hfresh : w.organizations.get? w.nonce = none :=
      Table.get?_of_bound hdrawn (Nat.le_refl _)
    constructor
    · rw [heff.refreshTokens]
      exact (tokens_refer hw h).kept husers
    · rw [heff.twoFactorChallenges]
      exact (challenges_refer hw h).kept husers
    · rw [heff.organizations]
      exact (owners_refer hw h).kept husers
    · rw [heff.members]
      exact (members_refer hw h).kept husers
    · rw [heff.members]
      exact memberships_refer hw h hl' hfresh
    · rw [heff.invitations]
      refine (invitations_refer hl' (fun _ _ _ _ _ => .inl) ?_ (fun _ _ _ => rfl)
        hw.inviter).kept husers
      rintro i rfl k hk
      cases hk
      exact (invitationCreate_refers h).2.1
    · rw [heff.invitations]
      refine (invitations_refer hl' (fun d hd i t k hk => ?_) ?_ (fun _ _ _ => rfl)
        hw.invitee).kept husers
      · cases hinvitee : d.inviteeId with
        | none => exact .inl (by simpa [InvitationPatch.apply, hinvitee] using hk)
        | some x =>
          refine .inr ((Option.all_eq_true ..).mp (invitationPatch_invitee h hd) k ?_)
          simpa [InvitationPatch.apply, hinvitee] using hk
      · rintro i rfl k hk
        exact (Option.all_eq_true ..).mp (invitationCreate_refers h).2.2 k hk
    · rw [heff.invitations]
      refine (invitations_refer hl' (fun _ _ _ _ _ => .inl) ?_ (fun _ _ _ => rfl)
        hw.invitationOrganization).kept horgs
      rintro i rfl k hk
      cases hk
      exact (invitationCreate_refers h).1
    · rw [heff.projects]
      refine (projects_refer (fun _ _ _ => rfl) ?_ (fun _ _ _ => rfl)
        hw.projectCreator).kept husers
      rintro p rfl k hk
      cases hk
      exact (projectCreate_refers h).2
    · rw [heff.projects]
      refine (projects_refer (fun _ _ _ => rfl) ?_ (fun _ _ _ => rfl)
        hw.projectOrganization).kept horgs
      rintro p rfl k hk
      cases hk
      exact (projectCreate_refers h).1
    · rw [heff.subscriptions]
      exact (subscriptions_refer (fun _ _ _ => rfl) (fun _ _ => rfl) (fun _ hr => hr.user) h
        hw.subscriptionUser).kept husers
    · rw [heff.subscriptions]
      exact (subscriptions_refer (fun _ _ _ => rfl) (fun _ _ => rfl)
        (fun _ hr => hr.organization) h hw.subscriptionOrganization).kept horgs
    · rw [heff.subscriptions, heff.plans]
      refine subscriptions_refer (fun _ _ _ => rfl) (fun _ _ => rfl) ?_ h hw.subscriptionPlan
      intro r hr k hk
      cases hk
      exact hr.plan
    · rw [heff.apiKeys]
      exact (apiKeys_refer hw h).kept husers
    · rw [heff.featureFlagOverrides, heff.featureFlags]
      exact overrideFlags_refer hw h
    · rw [heff.featureFlagOverrides]
      refine (overrides_refer (fun _ _ _ _ => rfl) ?_ hw.overrideOrganization).kept horgs
      intro o enabled value hcreate hnone k hk
      cases hk
      exact (overrideUpsert_refers (hcreate ▸ h) hnone).2

end Statements

structure Backend.Sound (b : Backend) : Prop where
  refers : b.Referential
  fresh : b.world.Fresh
  drawn : b.world.OrganizationsDrawn

theorem forget_refers {b : Backend} {users : Table User} (id : Id)
    (hnotes : b.notifications.Refers (fun n => some n.userId) users)
    (hprefs : b.notificationPreferences.Refers (fun p => some p.userId) users)
    (haudit : b.auditLogs.Refers AuditLog.userId users) :
    (b.forget id).notifications.Refers (fun n => some n.userId) (users.erase id) ∧
      (b.forget id).notificationPreferences.Refers (fun p => some p.userId) (users.erase id) ∧
        (b.forget id).auditLogs.Refers AuditLog.userId (users.erase id) := by
  refine ⟨hnotes.cascade_erase ?_, hprefs.cascade_erase ?_, haudit.cascade ?_⟩
  · intro k n i _ hkept hi _
    cases hi
    exact hkept
  · intro k p i _ hkept hi _
    cases hi
    exact hkept
  · intro k a a' i ha hi
    cases ha
    split at hi
    · cases hi
    · rename_i hne
      refine ⟨hi, fun _ _ => ?_⟩
      have hid : i ≠ id := fun heq => hne (by simp [hi, heq])
      simpa using hid

theorem Backend.Referential.core {b : Backend} {w : World} {l : Stmt} (hb : b.Referential)
    (hdrawn : b.world.OrganizationsDrawn) (h : l.exec b.world = .ok w) :
    ({ b with world := w }.cascade l).Referential := by
  have hworld := hb.world.exec hdrawn h
  by_cases hl : ∃ id, l = .userDelete id
  · obtain ⟨id, rfl⟩ := hl
    have husers : w.users = b.world.users.erase id := (exec_effect h).users
    obtain ⟨hnotes, hprefs, haudit⟩ := forget_refers (b := { b with world := w }) id
      hb.notificationUser hb.preferenceUser hb.auditUser
    rw [← husers] at hnotes hprefs haudit
    exact ⟨hworld, hnotes, hprefs, haudit⟩
  · have hl' : ∀ id, l ≠ .userDelete id := fun id heq => hl ⟨id, heq⟩
    have husers := users_kept (exec_effect h) hl'
    have hsame : { b with world := w }.cascade l = { b with world := w } := by
      unfold Backend.cascade
      split
      · exact absurd rfl (hl' _)
      · rfl
    rw [hsame]
    exact ⟨hworld, hb.notificationUser.kept husers, hb.preferenceUser.kept husers,
      hb.auditUser.kept husers⟩

theorem Backend.Referential.exec {b b' : Backend} {l : BackendStmt} (hb : b.Referential)
    (hdrawn : b.world.OrganizationsDrawn) (h : l.exec b = .ok b') : b'.Referential := by
  cases l with
  | core l =>
    simp only [BackendStmt.exec] at h
    split at h
    · cases h
    · rename_i w hw
      cases h
      exact hb.core hdrawn hw
  | notificationCreate id n =>
    obtain ⟨_, _, huser, rfl⟩ := insertNamed_ok (f := fun t => { b with notifications := t }) h
    refine ⟨hb.world, hb.notificationUser.insert fun i hi => ?_, hb.preferenceUser, hb.auditUser⟩
    cases hi
    exact huser
  | notificationUpdate id readAt =>
    simp only [BackendStmt.exec] at h
    split at h <;> cases h
    exact ⟨hb.world, hb.notificationUser.update fun _ => rfl, hb.preferenceUser, hb.auditUser⟩
  | notificationReadAll userId readAt =>
    cases h
    exact ⟨hb.world, hb.notificationUser.updateWhere fun _ => rfl, hb.preferenceUser, hb.auditUser⟩
  | notificationDelete id =>
    simp only [BackendStmt.exec] at h
    split at h <;> cases h
    exact ⟨hb.world, hb.notificationUser.eraseWhere, hb.preferenceUser, hb.auditUser⟩
  | notificationCleanup before =>
    cases h
    exact ⟨hb.world, hb.notificationUser.eraseWhere, hb.preferenceUser, hb.auditUser⟩
  | preferenceCreate id userId =>
    obtain ⟨_, _, huser, rfl⟩ :=
      insertNamed_ok (f := fun t => { b with notificationPreferences := t }) h
    refine ⟨hb.world, hb.notificationUser, hb.preferenceUser.insert fun i hi => ?_, hb.auditUser⟩
    cases hi
    exact huser
  | preferenceUpsert id userId d =>
    simp only [BackendStmt.exec] at h
    split at h
    · cases h
      exact ⟨hb.world, hb.notificationUser, hb.preferenceUser.update fun _ => rfl, hb.auditUser⟩
    · obtain ⟨_, _, huser, rfl⟩ :=
        insertNamed_ok (f := fun t => { b with notificationPreferences := t }) h
      refine ⟨hb.world, hb.notificationUser, hb.preferenceUser.insert fun i hi => ?_,
        hb.auditUser⟩
      cases hi
      exact huser
  | auditCreate id a =>
    obtain ⟨_, _, huser, rfl⟩ := insertNamed_ok (f := fun t => { b with auditLogs := t }) h
    refine ⟨hb.world, hb.notificationUser, hb.preferenceUser, hb.auditUser.insert fun i hi => ?_⟩
    exact (Option.all_eq_true ..).mp huser i hi
  | auditCleanup before =>
    cases h
    exact ⟨hb.world, hb.notificationUser, hb.preferenceUser, hb.auditUser.eraseWhere⟩
  | failedJobCreate id j =>
    obtain ⟨_, _, _, rfl⟩ := insertNamed_ok (f := fun t => { b with failedJobs := t }) h
    exact ⟨hb.world, hb.notificationUser, hb.preferenceUser, hb.auditUser⟩
  | failedJobCleanup before =>
    cases h
    exact ⟨hb.world, hb.notificationUser, hb.preferenceUser, hb.auditUser⟩
  | webhookEventCleanup before =>
    cases h
    have hw := hb.world
    exact ⟨⟨hw.tokenUser, hw.challengeUser, hw.owner, hw.memberUser, hw.memberOrganization,
      hw.inviter, hw.invitee, hw.invitationOrganization, hw.projectCreator, hw.projectOrganization,
      hw.subscriptionUser, hw.subscriptionOrganization, hw.subscriptionPlan, hw.apiKeyUser,
      hw.overrideFlag, hw.overrideOrganization⟩, hb.notificationUser, hb.preferenceUser,
      hb.auditUser⟩

end SaasBackend
