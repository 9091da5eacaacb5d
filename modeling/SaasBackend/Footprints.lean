import SaasBackend.AuthService
import SaasBackend.BillingService
import SaasBackend.ProjectService
import SaasBackend.TwoFactorService

set_option autoImplicit false

namespace SaasBackend
open Keyed Handler

inductive Area where
  /-- none of it -/
  | routine
  /-- bumps a token version and revokes -/
  | kill
  /-- creates an account or a refresh token, or sets a second factor -/
  | signIn
  /-- opens a second-factor challenge -/
  | challenge
  /-- writes an organization, but not only its customer, or an invitation to no owner -/
  | tenant
  /-- writes memberships, or deletes an account with all that hangs on it -/
  | membership
  deriving DecidableEq, Repr

/-- The checkout of an organization stores its customer at Stripe, and nothing else. -/
def OrganizationPatch.onlyCustomer (d : OrganizationPatch) : Bool :=
  d.name.isNone && d.slug.isNone && d.deletedAt.isNone

def Stmt.area : Stmt → Area
  | .userUpdate _ d => if d.twoFactorEnabled.isSome then .signIn else .routine
  | .killSessions .. | .reuseDetected _ => .kill
  | .userCreate _ | .refreshTokenCreate _ => .signIn
  | .challengeCreate _ => .challenge
  | .organizationUpdate _ d => if d.onlyCustomer then .routine else .tenant
  | .organizationCreate .. | .invitationUpdate .. => .tenant
  | .invitationCreate i => if i.role = .owner then .membership else .tenant
  | .userDelete _ | .transferOwnership .. | .memberUpdate .. | .memberDelete _
  | .invitationAccept .. => .membership
  | _ => .routine

abbrev Within {α : Type} (areas : List Area) (p : Req α) : Prop :=
  p.Sends (fun l => areas.contains l.area = true)

section Parts

variable {α : Type} {areas : List Area}

theorem Within.mono {p : Req α} {areas' : List Area} (h : Within areas p) (hsub : areas ⊆ areas') :
    Within areas' p :=
  Prog.Sends.mono h fun _ hl => List.contains_iff_mem.mpr (hsub (List.contains_iff_mem.mp hl))

theorem sends_when {P : Stmt → Prop} {c : Bool} {p : Req Unit} (hp : p.Sends P) :
    (when c p).Sends P := by
  cases c
  · exact .ret
  · exact hp

theorem orThrow_sends {P : Stmt → Prop} (e : Except Err α) : (orThrow e).Sends P := by
  cases e
  · exact .throw
  · exact .ret

end Parts

section Sessions

variable {env : Env}

theorem createRefreshTokenRecord_within (userId : Id) (client : ClientInfo) :
    Within [.routine, .signIn] (createRefreshTokenRecord env userId client) :=
  .bind (.send rfl) fun _ => .bind (.send rfl) fun _ => .bind (.send rfl) fun _ => .ret

theorem signToken_within (id : Id) (email : String) (role : Role) (v : Nat) :
    Within [.routine, .signIn] (signToken env id email role v) := .bind (.send rfl) fun _ => .ret

theorem register_within (name email password : String) (client : ClientInfo) :
    Within [.routine, .signIn] (register env name email password client) := by
  refine .bind (.send rfl) fun existing => ?_
  split
  · exact .throw
  · refine .bind (.send rfl) fun emailVerificationToken => .bind (.send rfl) fun now => ?_
    refine .bind (.tryCatch (.send rfl) fun err => ?_) fun created => ?_
    · split <;> exact .throw
    · exact .bind (createRefreshTokenRecord_within ..) fun _ => .bind (.send rfl) fun _ =>
        .bind (signToken_within ..) fun _ => .ret

theorem googleAccount_within (googleId normalizedEmail : String) (name : Option String) :
    Within [.routine, .signIn] (googleAccount googleId normalizedEmail name) := by
  refine .bind (.send rfl) fun linked => ?_
  split
  · exact .ret
  · refine .bind (.send rfl) fun byEmail => ?_
    split
    · split
      · exact .throw
      · exact .bind (.send rfl) fun _ => .ret
    · refine .tryCatch (.send rfl) fun err => ?_
      split
      · refine .bind (.send rfl) fun found => ?_
        split
        · exact .ret
        · exact .throw
      · exact .throw

theorem refresh_within (token : RefreshJwt) (client : ClientInfo) :
    Within [.routine, .kill, .signIn] (refresh env token client) := by
  refine .bind (.send rfl) fun now => ?_
  split
  · exact .throw
  · refine .bind (.send rfl) fun stored => ?_
    split
    · exact .throw
    · split
      · exact .bind (.send rfl) fun _ => .throw
      · refine .bind (.send rfl) fun now => ?_
        split
        · exact .bind (.send rfl) fun _ => .throw
        · split
          · exact .throw
          · split
            · exact .throw
            · refine .bind (.send rfl) fun now => ?_
              split
              · exact .throw
              · refine .bind (.send rfl) fun _ => ?_
                refine .bind ((createRefreshTokenRecord_within ..).mono (by decide)) fun _ => ?_
                exact .bind ((signToken_within ..).mono (by decide)) fun _ => .ret

theorem verifyChallenge_within (challengeToken code : Nat) (client : ClientInfo) :
    Within [.routine, .signIn] (verifyChallenge env challengeToken code client) := by
  rw [verifyChallenge_eq]
  refine .bind (.send rfl) fun found => ?_
  split
  · exact .throw
  refine whenAnswerable_rule (Q := Within [.routine, .signIn]) (fun _ => .throw)
    (fun _ => .bind (.send rfl) fun _ => .throw)
    (fun k hk => .bind (.send rfl) fun now => hk now trivial) fun _ => ?_
  refine .bind (.send rfl) fun matched => ?_
  split
  · refine .bind (.send rfl) fun attempts => ?_
    split <;> exact .throw
  · refine .bind (.send rfl) fun claimed => ?_
    split
    · exact .throw
    · refine .bind ?_ fun _ => .bind (.send rfl) fun _ => .bind (.send rfl) fun _ =>
        .bind (createRefreshTokenRecord_within ..) fun _ =>
          .bind (signToken_within ..) fun _ => .ret
      cases matched with
      | backup hashed => exact .send rfl
      | totp timeStep => exact .ret
      | invalid => exact .ret

theorem resetPassword_within (token : Nat) (newPassword : String) :
    Within [.routine, .kill] (resetPassword env token newPassword) := by
  refine .bind (.send rfl) fun found => ?_
  split
  · exact .throw
  · refine .bind (.send rfl) fun now => ?_
    split
    · exact .bind (.send rfl) fun _ => .throw
    · exact .bind (.send rfl) fun _ => .ret

theorem changePassword_within (userId : Id) (currentPassword newPassword : String) :
    Within [.routine, .kill] (changePassword env userId currentPassword newPassword) := by
  refine .bind (.send rfl) fun found => ?_
  split
  · exact .throw
  · split
    · exact .throw
    · refine .bind (.send rfl) fun valid => ?_
      split
      · exact .throw
      · refine .bind (.send rfl) fun samePassword => ?_
        split
        · exact .throw
        · exact .bind (.send rfl) fun _ => .ret

theorem drawBackupCodes_sends {P : Stmt → Prop} (hP : P .random) (n : Nat) :
    (drawBackupCodes n).Sends P := by
  induction n with
  | zero => exact .ret
  | succ n ih => exact .bind (.send hP) fun _ => .bind ih fun _ => .ret

theorem enable_within (userId : Id) (code : Nat) :
    Within [.routine, .kill] (enable env userId code) := by
  refine .bind (.send rfl) fun found => ?_
  split
  · exact .throw
  · split
    · exact .throw
    · split
      · exact .throw
      · refine .bind (.send rfl) fun now => ?_
        split
        · exact .throw
        · exact .bind (drawBackupCodes_sends (by rfl) _) fun _ => .bind (.send rfl) fun _ => .ret

theorem disable_within (userId : Id) (password : String) :
    Within [.routine, .kill] (disable env userId password) := by
  refine .bind (.send rfl) fun found => ?_
  split
  · exact .throw
  · split
    · exact .throw
    · split
      · exact .throw
      · refine .bind (.send rfl) fun valid => ?_
        split
        · exact .throw
        · exact .bind (.send rfl) fun _ => .ret

theorem revokeAllSessions_within (userId : Id) :
    Within [.routine, .kill] (revokeAllSessions userId) :=
  .bind (.send rfl) fun _ => .ret

end Sessions

section Accounts

variable {env : Env}

theorem logout_within (userId : Id) (refreshToken : Option RefreshJwt) :
    Within [.routine] (logout userId refreshToken) := by
  cases refreshToken with
  | some token => exact .bind (.send rfl) fun _ => .ret
  | none => exact .bind (.send rfl) fun _ => .ret

theorem setup_within (userId : Id) : Within [.routine] (setup userId) := by
  refine .bind (.send rfl) fun found => ?_
  split
  · exact .throw
  · split
    · exact .throw
    · exact .bind (.send rfl) fun _ => .bind (.send rfl) fun _ => .ret

theorem runs_of_reads {α : Type} {p : Req α} (hp : p.Sends (fun l => l = .read)) (w : World) :
    (p.runs w).2 = w := by
  refine (hp.run (R := fun w w' : World => w' = w) (fun _ => rfl)
    (fun _ _ _ h₁ h₂ => h₂.trans h₁) ?_ w)
  rintro l w w' rfl hexec
  cases hexec
  rfl

theorem lastAdmin_reads (demotes : Bool) : (lastAdmin demotes).Sends (fun l => l = .read) := by
  unfold lastAdmin
  split
  · exact .bind (.send rfl) fun _ => .ret
  · exact .ret

def Stmt.administers (u : Id) : Stmt → Bool
  | .read => true
  | .userUpdate id d => id == u && d.twoFactorEnabled.isNone
  | _ => false

theorem updateUser_sends (userId : Id) (data : Admin.UpdateUserBody) (actingAdminId : Id) :
    (Admin.updateUser userId data actingAdminId).Sends (fun l => l.administers userId = true) := by
  unfold Admin.updateUser
  split
  · exact .throw
  · split
    · exact .throw
    · refine .bind (.send rfl) fun found => ?_
      split
      · exact .throw
      · refine .bind ((lastAdmin_reads _).mono fun l hl => by rw [hl]; rfl) fun last => ?_
        split
        · exact .throw
        · exact .bind (.send rfl) fun _ => .bind (.send (by simp [Stmt.administers])) fun _ => .ret

theorem deleteUser_sends (userId actingAdminId : Id) :
    (Admin.deleteUser userId actingAdminId).Sends (fun l => l.administers userId = true) := by
  refine .bind (.send rfl) fun found => ?_
  split
  · exact .throw
  · refine .bind ((lastAdmin_reads _).mono fun l hl => by rw [hl]; rfl) fun last => ?_
    split
    · exact .throw
    · split
      · exact .throw
      · exact .bind (.send rfl) fun _ => .bind (.send (by simp [Stmt.administers])) fun _ => .ret

theorem restoreUser_sends (userId : Id) :
    (Admin.restoreUser userId).Sends (fun l => l.administers userId = true) := by
  refine .bind (.send rfl) fun found => ?_
  split
  · exact .throw
  · refine .bind (.tryCatch (.send (by simp [Stmt.administers])) fun err => ?_) fun _ => .ret
    split <;> exact .throw

def Stmt.ofCancellation : Stmt → Bool
  | .read | .stripeCancel _ | .subscriptionCancel .. | .organizationUpdate .. => true
  | _ => false

theorem cancelOwned_sends (first : NewestFirst) (owned : Subscription → Bool) :
    (cancelOwned env first owned).Sends (fun l => l.ofCancellation = true) := by
  refine .bind (.send rfl) fun found => ?_
  split
  · exact .throw
  · split
    · exact .throw
    · refine .bind (.send rfl) fun _ => .bind (.send rfl) fun now =>
        .bind (.send rfl) fun updated => ?_
      split
      · exact .throw
      · exact .ret

theorem cancelAtStripe_sends (subscriptions : List (Id × Subscription)) :
    (cancelAtStripe subscriptions).Sends (fun l => l.ofCancellation = true) := by
  induction subscriptions with
  | nil => exact .ret
  | cons r rest ih => exact .bind (.tryCatch (.send rfl) fun _ => .throw) fun _ => ih

def Stmt.ofDeletion (u : Id) : Stmt → Bool
  | .read | .bcryptCompare _ | .stripeCancel _ => true
  | .userDelete id => id == u
  | _ => false

theorem cancelAtStripe_calls (subscriptions : List (Id × Subscription)) :
    (cancelAtStripe subscriptions).Sends (fun l => l = .read ∨ ∃ sid, l = .stripeCancel sid) := by
  induction subscriptions with
  | nil => exact .ret
  | cons x rest ih => exact .bind (.tryCatch (.send (.inr ⟨_, rfl⟩)) fun _ => .throw) fun _ => ih

theorem cancelAtStripe_within (subscriptions : List (Id × Subscription)) :
    Within [.routine] (cancelAtStripe subscriptions) := by
  refine (cancelAtStripe_calls subscriptions).mono fun l hl => ?_
  rcases hl with rfl | ⟨sid, rfl⟩ <;> rfl

theorem deleteAccount_calls (userId : Id) (password : String) :
    (deleteAccount env userId password).Sends (fun l => l.ofDeletion userId = true) := by
  refine .bind (.send rfl) fun found => ?_
  split
  · exact .throw
  · split
    · exact .throw
    · refine .bind (.send rfl) fun valid => ?_
      split
      · exact .throw
      · refine .bind ((lastAdmin_reads _).mono fun l hl => by rw [hl]; rfl) fun last => ?_
        split
        · exact .throw
        · refine .bind (.send rfl) fun blocking => ?_
          split
          · exact .throw
          · refine .bind ?_ fun _ => .bind (.send (beq_self_eq_true userId)) fun _ => .ret
            unfold when
            split
            · refine .bind (.send rfl) fun _ => (cancelAtStripe_calls _).mono fun l hl => ?_
              rcases hl with rfl | ⟨sid, rfl⟩ <;> rfl
            · exact .ret

end Accounts

section Guards

variable {env : Env}

theorem authenticate_reads (header : AuthHeader) :
    (authenticate header).Sends (fun l => l = .read) := by
  unfold authenticate
  split
  · exact .throw
  · exact .throw
  · refine .bind (.send rfl) fun now => ?_
    split
    · exact .throw
    · refine .bind (.send rfl) fun found => ?_
      split
      · exact .throw
      · split
        · exact .throw
        · split
          · exact .throw
          · refine .bind (.send rfl) fun now => ?_
            split
            · exact .throw
            · exact .ret

theorem authenticate_within (header : AuthHeader) : Within [.routine] (authenticate header) :=
  (authenticate_reads header).mono fun l hl => by rw [hl]; rfl

theorem authorize_sends {P : Stmt → Prop} (roles : List Role) (caller : Caller) :
    (authorize roles caller).Sends P := by
  unfold authorize
  split
  · exact .ret
  · exact .throw

theorem requireVerifiedEmail_reads (caller : Caller) :
    (requireVerifiedEmail caller).Sends (fun l => l = .read) := by
  unfold requireVerifiedEmail
  split
  · split
    · exact .ret
    · exact .throw
  · refine .bind (.send rfl) fun found => ?_
    split
    · exact .ret
    · exact .throw

theorem requireVerifiedEmail_within (caller : Caller) :
    Within [.routine] (requireVerifiedEmail caller) :=
  (requireVerifiedEmail_reads caller).mono fun l hl => by rw [hl]; rfl

theorem requireTenant_within (orgId : Id) (caller : Caller) :
    Within [.routine] (requireTenant orgId caller) := by
  refine .bind (.send rfl) fun found => ?_
  split
  · exact .ret
  · exact .throw

theorem requireOrgRole_within (roles : List OrgRole) (tenant : Tenant) :
    Within [.routine] (requireOrgRole roles tenant) := by
  unfold requireOrgRole
  split
  · exact .ret
  · exact .throw

theorem subscriptionGate_within (first : NewestFirst) (owned : Subscription → Bool) :
    Within [.routine] (subscriptionGate first owned) := by
  refine .bind (.send rfl) fun found => ?_
  split
  · exact .ret
  · exact .throw

theorem requirePlan_within (planCodes : List String) (subscription : ActiveSubscription) :
    Within [.routine] (requirePlan planCodes subscription) := by
  unfold requirePlan
  split
  · exact .ret
  · exact .throw

theorem evaluateFlag_reads (key : String) (orgId : Option Id) (planCode : Option String) :
    (evaluateFlag env key orgId planCode).Sends (fun l => l = .read) := by
  refine .bind (.send rfl) fun found => ?_
  split
  · exact .ret
  · split
    · exact .ret
    · cases orgId with
      | none =>
        refine .bind .ret fun override => ?_
        cases override <;> exact .bind (orThrow_sends _) fun _ => .ret
      | some id =>
        refine .bind (.send rfl) fun override => ?_
        cases override <;> exact .bind (orThrow_sends _) fun _ => .ret

theorem requireFeatureFlag_within (key : String) (tenant : Tenant)
    (subscription : Option ActiveSubscription) :
    Within [.routine] (requireFeatureFlag env key tenant subscription) := by
  refine .bind ((evaluateFlag_reads ..).mono fun l hl => by rw [hl]; rfl) fun result => ?_
  split
  · exact .ret
  · exact .throw

theorem verifyApiKey_sends (rawKey : Nat) :
    (verifyApiKey rawKey).Sends (fun l => l = .read ∨ ∃ id now, l = .apiKeyTouch id now) := by
  refine .bind (.send (.inl rfl)) fun found => ?_
  split
  · exact .ret
  · split
    · exact .ret
    · refine .bind (.send (.inl rfl)) fun now => ?_
      split
      · exact .ret
      · split
        · exact .ret
        · refine .bind (.send (.inl rfl)) fun now => ?_
          split
          · exact .ret
          · refine .bind (.bind (.send (.inl rfl)) fun _ => sends_when ?_) fun _ => .ret
            exact .tryCatch (.send (.inr ⟨_, _, rfl⟩)) fun _ => .ret

theorem authenticateApiKey_sends (header : ApiKeyHeader) :
    (authenticateApiKey header).Sends (fun l => l = .read ∨ ∃ id now, l = .apiKeyTouch id now) := by
  cases header with
  | missing => exact .throw
  | malformed => exact .throw
  | key rawKey =>
    refine .bind (verifyApiKey_sends rawKey) fun result => ?_
    split
    · exact .throw
    · exact .ret

theorem requireScope_sends {P : Stmt → Prop} (scopes : List String) (apiKey : KeyContext) :
    (requireScope scopes apiKey).Sends P := by
  unfold requireScope
  split
  · exact .ret
  · exact .throw

end Guards

section Resources

variable {env : Env}

theorem findLive_within (organizationId projectId : Id) :
    Within [.routine] (findLive organizationId projectId) := by
  refine .bind (.send rfl) fun found => ?_
  split
  · exact .throw
  · exact .ret

theorem listProjects_within (organizationId : Id) (q : ListQuery) :
    Within [.routine] (listProjects env organizationId q) :=
  .bind (.send rfl) fun _ => .bind (.send rfl) fun _ => .ret

theorem getProject_within (organizationId projectId : Id) :
    Within [.routine] (getProject organizationId projectId) :=
      .bind (findLive_within ..) fun _ => .ret

theorem projectRoute_within (header : AuthHeader) (orgId : Id) (route : ProjectRoute) :
    Within [.routine] (route.handle env header orgId) := by
  refine .bind (authenticate_within header) fun caller =>
    .bind (requireVerifiedEmail_within caller) fun _ =>
    .bind (requireTenant_within orgId caller) fun tenant => ?_
  cases route with
  | listProjects q => exact listProjects_within tenant.id q
  | exportProjects _ =>
    refine .bind (subscriptionGate_within _ _) fun subscription =>
      .bind (requirePlan_within _ _) fun _ =>
      .bind (requireFeatureFlag_within ..) fun _ => ?_
    exact .bind (.send rfl) fun _ => .bind (.send rfl) fun _ => .ret
  | projectAnalytics _ =>
    refine .bind (subscriptionGate_within _ _) fun subscription =>
      .bind (requirePlan_within _ _) fun _ => ?_
    exact .bind (.send rfl) fun _ => .bind (.send rfl) fun _ => .ret
  | getProject projectId => exact getProject_within tenant.id projectId
  | createProject name description =>
    exact .bind (requireOrgRole_within _ _) fun _ => .bind (.send rfl) fun _ => .ret
  | updateProject projectId body =>
    refine .bind (requireOrgRole_within _ _) fun _ => .bind (findLive_within ..) fun _ =>
      .bind (.send rfl) fun project => ?_
    split
    · exact .throw
    · exact .ret
  | deleteProject projectId =>
    exact .bind (requireOrgRole_within _ _) fun _ => .bind (findLive_within ..) fun _ =>
      .bind (.send rfl) fun _ => .bind (.send rfl) fun _ => .ret

def Stmt.ofWebhook : Stmt → Bool
  | .read | .subscriptionCreate _ | .subscriptionDeleted .. => true
  | .subscriptionApply row stamp => row.stripeEventCreatedAt == some stamp
  | _ => false

theorem upsertSubscription_sends (owner : Owner) (planId : Id) (stripeSub : StripeSub)
    (created : Option Nat) :
    (upsertSubscription owner planId stripeSub created).Sends (fun l => l.ofWebhook = true) := by
  refine .bind (.send rfl) fun plan => ?_
  split
  · exact .ret
  · refine .bind (.send rfl) fun now => .bind (.send (beq_self_eq_true _)) fun updated => ?_
    split
    · exact .ret
    · refine .tryCatch (.send rfl) fun err => ?_
      split
      · exact .ret
      · exact .throw

theorem handleEvent_sends (event : StripeEvent) :
    (handleEvent event).Sends (fun l => l.ofWebhook = true) := by
  have hupdated : ∀ stripeSub created,
      (handleSubscriptionUpdated stripeSub created).Sends (fun l => l.ofWebhook = true) := by
    intro stripeSub created
    unfold handleSubscriptionUpdated
    split
    · exact .ret
    · exact upsertSubscription_sends ..
  unfold handleEvent
  split
  · unfold handleCheckoutCompleted
    split
    · refine .bind (.bind (.send rfl) fun found => ?_) fun _ => upsertSubscription_sends ..
      split
      · exact .throw
      · exact .ret
    · exact .ret
  · exact hupdated ..
  · exact hupdated ..
  · exact .bind (.send rfl) fun _ => .bind (.send rfl) fun _ => .send rfl
  · exact .ret

theorem handleWebhook_sends (rawBody : String) (signature : Option String) :
    (handleWebhook env rawBody signature).Sends
      (fun l => l.ofWebhook = true ∨ ∃ id type, l = .webhookEventCreate id type) := by
  unfold handleWebhook
  split
  · exact .throw
  · split
    · exact .throw
    · split
      · exact .throw
      · split
        · exact .throw
        · refine .bind (.tryCatch (.send (.inr ⟨_, _, rfl⟩)) fun err => ?_) fun new => ?_
          · split
            · exact .ret
            · exact .throw
          · split
            · exact .ret
            · exact .bind ((handleEvent_sends _).mono fun _ => .inl) fun _ => .ret

theorem deleteOrganization_sends (orgId : Id) :
    (deleteOrganization env orgId).Sends (fun l => l.ofCancellation = true) := by
  refine .bind ?_ fun _ => .bind (.send rfl) fun _ => .bind (.send rfl) fun _ => .ret
  unfold when
  split
  · refine .bind (.send rfl) fun _ => .bind (cancelAtStripe_sends _) fun _ => ?_
    split
    · exact .bind (.send rfl) fun _ => .send rfl
    · exact .ret
  · exact .ret

end Resources

section Tenancy

variable {env : Env}

theorem tenantWithRole_within (orgId : Id) (roles : List OrgRole) (caller : Caller) :
    Within [.routine, .tenant] (tenantWithRole orgId roles caller) :=
  .bind ((requireTenant_within orgId caller).mono (by decide)) fun tenant =>
    .bind ((requireOrgRole_within roles tenant).mono (by decide)) fun _ => .ret

theorem slugTaken_within (err : Err) : Within [.routine, .tenant] (slugTaken err) := by
  unfold slugTaken
  split <;> exact .throw

theorem createOrganization_within (userId : Id) (name slug : String) :
    Within [.routine, .tenant] (createOrganization userId name slug) := by
  refine .bind (.send rfl) fun existing => ?_
  split
  · exact .throw
  · exact .tryCatch (.send rfl) slugTaken_within

theorem organizationUpdate_area (id : Id) (d : OrganizationPatch) :
    [Area.routine, .tenant].contains (Stmt.organizationUpdate id d).area = true := by
  simp only [Stmt.area]
  split <;> rfl

theorem updateOrganization_within (orgId : Id) (name slug : Option String) :
    Within [.routine, .tenant] (updateOrganization orgId name slug) := by
  refine .bind ?_ fun conflict => ?_
  · unfold slugConflict
    split
    · exact .ret
    · split
      · exact .ret
      · exact .bind (.send rfl) fun _ => .ret
  · split
    · exact .throw
    · exact .tryCatch (.send (organizationUpdate_area orgId _)) slugTaken_within

theorem deleteOrganization_within (orgId : Id) :
    Within [.routine, .tenant] (deleteOrganization env orgId) := by
  refine (deleteOrganization_sends orgId).mono fun l hl => ?_
  cases l with
  | organizationUpdate id d => exact organizationUpdate_area id d
  | _ => first | rfl | cases hl

theorem createInvitation_within (tenant : Tenant) (inviterId : Id) (email : String)
    (role : AssignableRole) :
    Within [.routine, .tenant] (createInvitation env tenant inviterId email role) := by
  apply createInvitation_sends
  · rfl
  · rfl
  · exact fun _ => rfl
  · intro row _ hrole
    simp [Stmt.area, hrole, role.notOwner]

theorem openInvitation_within (userId : Id) (token : Nat) :
    Within [.routine, .tenant] (openInvitation userId token) := by
  apply openInvitation_sends
  · rfl
  · exact fun _ _ _ => rfl

end Tenancy

end SaasBackend
