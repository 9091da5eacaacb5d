import SaasBackend.FeatureFlagRoutes
import SaasBackend.OrganizationBilling
import SaasBackend.OrganizationListings
import SaasBackend.Ownership
import SaasBackend.ProjectIsolation

/-! What someone who has nothing to do with an organization can learn of it: the two answers
to one request of his, in two databases that differ in nothing but that organization's rows. -/

set_option autoImplicit false

namespace SaasBackend
open Keyed Handler

inductive OutsideRequest where
  | org (header : AuthHeader) (route : OrgRoute)
  | listing (header : AuthHeader) (route : ListingRoute)
  | billing (header : AuthHeader) (orgId : Id) (route : BillingRoute)
  | project (header : AuthHeader) (orgId : Id) (route : ProjectRoute)
  | evaluate (header : AuthHeader) (key : String) (orgId : Option Id)
      (orgFirst ownerFirst : NewestFirst)

inductive OutsideReply where
  | org (reply : OrgReply)
  | listing (reply : ListingReply)
  | billing (reply : BillingReply)
  | project (reply : ProjectReply)
  | evaluate (reply : FlagReply)

def OutsideRequest.prog (env : Env) (stripe : StripeApi) : OutsideRequest → Req OutsideReply
  | .org header route => (route.handle env header).bind fun reply => .ret (.org reply)
  | .listing header route => (route.handle env header).bind fun reply => .ret (.listing reply)
  | .billing header orgId route =>
      (route.handle env stripe header orgId).bind fun reply => .ret (.billing reply)
  | .project header orgId route =>
      (route.handle env header orgId).bind fun reply => .ret (.project reply)
  | .evaluate header key orgId orgFirst ownerFirst =>
      (FlagRoute.handle env header (.evaluateFlag key orgId orgFirst ownerFirst)).bind
        fun reply => .ret (.evaluate reply)

def OutsideRequest.header : OutsideRequest → AuthHeader
  | .org header _ | .listing header _ | .billing header _ _ | .project header _ _
  | .evaluate header _ _ _ _ => header

/-- The states differ in nothing but rows of organization `o`. -/
structure World.SameBut (o : Id) (w₁ w₂ : World) : Prop where
  rest : w₂ = { w₁ with
    organizations := w₂.organizations, members := w₂.members, projects := w₂.projects
    invitations := w₂.invitations, featureFlagOverrides := w₂.featureFlagOverrides
    subscriptions := w₂.subscriptions }
  organizations : w₁.organizations.filter (fun k _ => k != o) =
    w₂.organizations.filter (fun k _ => k != o)
  members : w₁.members.filter (fun _ m => m.organizationId != o) =
    w₂.members.filter (fun _ m => m.organizationId != o)
  projects : w₁.projects.filter (fun _ p => p.organizationId != o) =
    w₂.projects.filter (fun _ p => p.organizationId != o)
  invitations : w₁.invitations.filter (fun _ i => i.organizationId != o) =
    w₂.invitations.filter (fun _ i => i.organizationId != o)
  featureFlagOverrides : w₁.featureFlagOverrides.filter (fun _ f => f.organizationId != o) =
    w₂.featureFlagOverrides.filter (fun _ f => f.organizationId != o)
  subscriptions : w₁.subscriptions.filter (fun _ s => s.organizationId != some o) =
    w₂.subscriptions.filter (fun _ s => s.organizationId != some o)

/-- What the schema and the draw of tokens hold the tables to. -/
structure World.Constrained (w : World) : Prop where
  slugs : ∀ k k' org org', w.organizations.get? k = some org → w.organizations.get? k' = some org' →
    org.slug = org'.slug → k = k'
  subscriptions : ∀ k s, w.subscriptions.get? k = some s → World.ownerXor s = true
  tokens : ∀ k i, w.invitations.get? k = some i → ∃ n, n < w.nonce ∧ i.token = hashToken n

structure Outside (o u : Id) (w : World) : Prop where
  notMember : ∀ k m, w.members.get? k = some m → m.organizationId = o → m.userId ≠ u
  notInvited : ∀ k i x, w.invitations.get? k = some i → i.organizationId = o →
    w.users.get? u = some x → i.inviteeEmail ≠ x.email

def OutsideRequest.Presents (o : Id) (w : World) (r : OutsideRequest) : Prop :=
  ∃ header raw k i, (r = .org header (.acceptInvitation raw) ∨
    r = .org header (.declineInvitation raw)) ∧
    w.invitations.get? k = some i ∧ i.organizationId = o ∧ i.token = hashToken raw

structure Unseen (o u : Id) (r : OutsideRequest) (w₁ w₂ : World) : Prop where
  same : w₁.SameBut o w₂
  constrained₁ : w₁.Constrained
  constrained₂ : w₂.Constrained
  outside₁ : Outside o u w₁
  outside₂ : Outside o u w₂
  caller : ∀ u', r.header.bearerId = some u' → u' = u
  noToken₁ : ¬ r.Presents o w₁
  noToken₂ : ¬ r.Presents o w₂

def OutsideRequest.Evaluates (o : Id) (orgFirst ownerFirst : NewestFirst) (r : OutsideRequest) :
    Prop :=
  ∃ header key, r = .evaluate header key (some o) orgFirst ownerFirst

structure World.SameRollout (o : Id) (orgFirst ownerFirst : NewestFirst) (w₁ w₂ : World) :
    Prop where
  overrides : w₁.featureFlagOverrides.filter (fun _ f => f.organizationId == o) =
    w₂.featureFlagOverrides.filter (fun _ f => f.organizationId == o)
  planCode : w₁.planCodeFor orgFirst ownerFirst o = w₂.planCodeFor orgFirst ownerFirst o

def OutsideRequest.NamesSlug (r : OutsideRequest) : Prop :=
  (∃ header name slug, r = .org header (.createOrganization name slug)) ∨
    ∃ header orgId name slug, r = .org header (.updateOrganization orgId name slug)

def slugAlreadyTaken : Err := httpError "errors.slugAlreadyTaken" 409

section Tables

variable {o u p : Id} {w₁ w₂ : World}

theorem World.SameBut.now (h : w₁.SameBut o w₂) : w₁.now = w₂.now := by rw [h.rest]
theorem World.SameBut.nonce (h : w₁.SameBut o w₂) : w₁.nonce = w₂.nonce := by rw [h.rest]
theorem World.SameBut.users (h : w₁.SameBut o w₂) : w₁.users = w₂.users := by rw [h.rest]
theorem World.SameBut.plans (h : w₁.SameBut o w₂) : w₁.plans = w₂.plans := by rw [h.rest]
theorem World.SameBut.featureFlags (h : w₁.SameBut o w₂) : w₁.featureFlags = w₂.featureFlags := by
  rw [h.rest]
theorem World.SameBut.stripe (h : w₁.SameBut o w₂) : w₁.stripe = w₂.stripe := by rw [h.rest]

theorem World.SameBut.userView (h : w₁.SameBut o w₂) (k : Id) : w₁.userView k = w₂.userView k := by
  rw [World.userView, World.userView, h.users]

theorem World.SameBut.organization (h : w₁.SameBut o w₂) (hne : p ≠ o) :
    w₁.organizations.get? p = w₂.organizations.get? p :=
  Option.ext fun _ => Table.get?_congr h.organizations (bne_iff_ne.mpr hne)

theorem World.SameBut.tenant (h : w₁.SameBut o w₂) (hne : p ≠ o) : w₁.SameTenant p w₂ where
  now := h.now
  nonce := h.nonce
  organization := h.organization hne
  members := Table.filter_congr
    (fun _ m hm => by rw [beq_iff_eq.mp hm]; exact bne_iff_ne.mpr hne) h.members
  projects := Table.filter_congr
    (fun _ q hq => by rw [beq_iff_eq.mp hq]; exact bne_iff_ne.mpr hne) h.projects
  creators := fun _ q _ _ => h.userView q.createdById
  featureFlagOverrides :=
    Table.filter_congr (fun _ f hf => by rw [beq_iff_eq.mp hf]; exact bne_iff_ne.mpr hne)
      h.featureFlagOverrides
  subscriptions := Table.filter_congr (fun _ s hs => by
    rw [beq_iff_eq.mp hs]
    exact bne_iff_ne.mpr fun heq => hne (Option.some.inj heq)) h.subscriptions
  featureFlags := h.featureFlags

theorem personal_notOrganization {s : Subscription} (hxor : World.ownerXor s = true)
    (hu : s.userId = some u) :
    s.organizationId = none := by
  simpa [World.ownerXor, hu] using hxor

theorem World.SameBut.personal (h : w₁.SameBut o w₂) (h₁ : w₁.Constrained)
    (h₂ : w₂.Constrained) (u : Id) :
    w₁.subscriptions.filter (fun _ s => s.userId == some u) =
      w₂.subscriptions.filter (fun _ s => s.userId == some u) := by
  refine Table.filter_congr_of (q := fun _ s => s.organizationId != some o) ?_ ?_ h.subscriptions
  · intro k s hk hs
    simp [personal_notOrganization (h₁.subscriptions k s hk) (beq_iff_eq.mp hs)]
  · intro k s hk hs
    simp [personal_notOrganization (h₂.subscriptions k s hk) (beq_iff_eq.mp hs)]

theorem World.SameBut.caller (h : w₁.SameBut o w₂) (h₁ : w₁.Constrained)
    (h₂ : w₂.Constrained) (u : Id) :
    w₁.SameCaller u w₂ := ⟨by rw [h.users], h.personal h₁ h₂ u⟩

theorem World.SameBut.memberships (h : w₁.SameBut o w₂) (h₁ : Outside o u w₁)
    (h₂ : Outside o u w₂) :
    w₁.members.filter (fun _ m => m.userId == u) =
      w₂.members.filter (fun _ m => m.userId == u) := by
  refine Table.filter_congr_of (q := fun _ m => m.organizationId != o) ?_ ?_ h.members
  · exact fun k m hk hm => bne_iff_ne.mpr fun ho => h₁.notMember k m hk ho (beq_iff_eq.mp hm)
  · exact fun k m hk hm => bne_iff_ne.mpr fun ho => h₂.notMember k m hk ho (beq_iff_eq.mp hm)

theorem Outside.notTenant (h : Outside o u w₁) : w₁.tenant o u = none := by
  have hnone : w₁.membership o u = none := by
    cases hm : w₁.membership o u with
    | none => rfl
    | some r =>
      obtain ⟨hk, ho, hu⟩ := membership_some hm
      exact absurd hu (h.notMember _ _ hk ho)
  rw [World.tenant, hnone]
  rfl

end Tables

section Guards

variable {env : Env} {o u p : Id} {w₁ w₂ : World} {α β : Type}

abbrev Alike (p : Req α) (w₁ w₂ : World) : Prop := Together (fun _ _ _ => True) p w₁ w₂

theorem alike_reads_bind {Q : α → Prop} {p : Req α} {k : α → Req β} (hp : ReadsSame Q p w₁ w₂)
    (hk : ∀ a, Q a → Alike (k a) w₁ w₂) :
    Alike (p.bind k) w₁ w₂ := hp.together_bind (fun _ => trivial) hk

theorem alike_query_bind {view : World → α} {k : α → Req β} (hview : view w₁ = view w₂)
    (hk : Alike (k (view w₁)) w₁ w₂) :
    Alike ((query view).bind k) w₁ w₂ := together_query_bind hview hk

def ExecAlike (l : Stmt) (w₁ w₂ : World) : Prop :=
  (l.exec w₁).map (fun _ => ()) = (l.exec w₂).map (fun _ => ())

theorem ExecAlike.cases {l : Stmt} (h : ExecAlike l w₁ w₂) :
    (∃ e, l.exec w₁ = .error e ∧ l.exec w₂ = .error e) ∨ ∃ t₁ t₂, l.exec w₁ = .ok t₁ ∧
      l.exec w₂ = .ok t₂ := by
  unfold ExecAlike at h
  cases h₁ : l.exec w₁ with
  | error e =>
    cases h₂ : l.exec w₂ with
    | error e' =>
      rw [h₁, h₂] at h
      cases h
      exact .inl ⟨e, rfl, rfl⟩
    | ok t₂ => rw [h₁, h₂] at h; cases h
  | ok t₁ =>
    cases h₂ : l.exec w₂ with
    | error e => rw [h₁, h₂] at h; cases h
    | ok t₂ => exact .inr ⟨t₁, t₂, rfl, rfl⟩

theorem ExecAlike.bind {post : Except Err β → World → World → Prop} {l : Stmt} {view : World → α}
    {k : α → Req β} (h : ExecAlike l w₁ w₂) (hview : view w₁ = view w₂)
    (herr : ∀ e, post (.error e) w₁ w₂)
    (hok : ∀ t₁ t₂, l.exec w₁ = .ok t₁ → l.exec w₂ = .ok t₂ → Together post (k (view w₁)) t₁ t₂) :
    Together post ((send l view).bind k) w₁ w₂ := by
  refine Prog.Together.send_bind hview (h.cases.imp ?_ ?_)
  · rintro ⟨e, h₁, h₂⟩
    exact ⟨e, h₁, h₂, herr e⟩
  · rintro ⟨t₁, t₂, h₁, h₂⟩
    exact ⟨t₁, t₂, h₁, h₂, hok t₁ t₂ h₁ h₂⟩

theorem alike_send {l : Stmt} {view : World → α} (hview : view w₁ = view w₂)
    (hexec : ExecAlike l w₁ w₂) :
    Alike (send l view) w₁ w₂ := by
  refine ⟨?_, trivial⟩
  rw [send, Prog.run_send, Prog.run_send]
  rcases hexec.cases with ⟨e, h₁, h₂⟩ | ⟨t₁, t₂, h₁, h₂⟩
  · rw [h₁, h₂]
  · rw [h₁, h₂, hview]

theorem alike_tryCatch_send_bind {l : Stmt} {view : World → α} {c : Err → Req α} {k : α → Req β}
    (hview : view w₁ = view w₂) (h : ExecAlike l w₁ w₂) (hok : ∀ t₁ t₂, Alike (k (view w₁)) t₁ t₂)
    (herr : ∀ e, Alike ((c e).bind k) w₁ w₂) : Alike (((send l view).tryCatch c).bind k) w₁ w₂ := by
  refine ⟨?_, trivial⟩
  show (Prog.run Stmt.exec (.stmt l (fun s => k (view s)) fun e => (c e).bind k) w₁).1 =
    (Prog.run Stmt.exec (.stmt l (fun s => k (view s)) fun e => (c e).bind k) w₂).1
  rw [Prog.run_stmt, Prog.run_stmt, ← hview]
  rcases h.cases with ⟨e, h₁, h₂⟩ | ⟨t₁, t₂, h₁, h₂⟩
  · rw [h₁, h₂]
    exact (herr e).1
  · rw [h₁, h₂]
    exact (hok t₁ t₂).1

/-- `o` itself refuses the caller, and another organization admits him in both states or in
neither. -/
theorem requireTenant_outside (h : w₁.SameBut o w₂) {caller : Caller} (h₁ : Outside o caller.id w₁)
    (h₂ : Outside o caller.id w₂) :
    ReadsSame (fun tenant => tenant.id ≠ o) (requireTenant p caller) w₁ w₂ := by
  by_cases hne : p = o
  · subst hne
    refine readsSame_query_bind (by rw [h₁.notTenant, h₂.notTenant]) ?_
    rw [h₁.notTenant]
    exact .throw
  · refine (requireTenant_same (h.tenant hne) caller).weaken ?_
    rintro _ _ _ ⟨rfl, rfl, htenant⟩
    refine ⟨rfl, rfl, fun tenant heq => ?_⟩
    have hid : tenant.id = p := (htenant tenant heq).1
    exact fun heq => hne (hid ▸ heq)

theorem requireTenantIncludeDeleted_outside (h : w₁.SameBut o w₂) {caller : Caller}
    (h₁ : Outside o caller.id w₁) (h₂ : Outside o caller.id w₂) :
    ReadsSame (fun tenant => tenant.id ≠ o) (requireTenantIncludeDeleted p caller) w₁ w₂ := by
  by_cases hne : p = o
  · subst hne
    refine readsSame_query_bind (by rw [h₁.notTenant, h₂.notTenant]) ?_
    rw [h₁.notTenant]
    exact .throw
  · have ht := h.tenant hne
    refine readsSame_query_bind
      (by rw [World.tenant, World.tenant, membership_same ht, ht.organization]) ?_
    split
    · rename_i tenant _ hfound
      refine .ret ?_
      simp only [World.tenant] at hfound
      obtain ⟨r, _, hjoin⟩ := Option.bind_eq_some_iff.mp hfound
      obtain ⟨org, _, heq⟩ := Option.map_eq_some_iff.mp hjoin
      obtain ⟨rfl, _⟩ := Prod.mk.inj heq
      exact hne
    · exact .throw

theorem tenantWithRole_outside (h : w₁.SameBut o w₂) {caller : Caller} (h₁ : Outside o caller.id w₁)
    (h₂ : Outside o caller.id w₂) (roles : List OrgRole) :
    ReadsSame (fun tenant => tenant.id ≠ o) (tenantWithRole p roles caller) w₁ w₂ :=
  (requireTenant_outside h h₁ h₂).bind fun tenant hne => (requireOrgRole_same roles tenant).bind
    fun _ _ => .ret hne

end Guards

section Organizations

variable {env : Env} {o u p : Id} {w₁ w₂ : World}

theorem getOrganization_alike (h : w₁.SameTenant p w₂) : Alike (getOrganization p) w₁ w₂ := by
  refine alike_query_bind (by rw [h.organization]) ?_
  split
  · exact Prog.Together.throw trivial
  · exact Prog.Together.ret trivial

theorem organizationUpdate_ok {w : World} {org : Organization} {d : OrganizationPatch}
    (hw : w.Constrained) (horg : w.organizations.get? p = some org) (hd : d.slug = none) :
    ∃ t, (Stmt.organizationUpdate p d).exec w = .ok t := by
  have hfree : w.organizations.any (fun k org' => k != p && (d.apply org).slug == org'.slug) =
      false := by
    refine Table.any_eq_false.mpr fun k org' hk => ?_
    simp only [OrganizationPatch.apply, hd, Option.getD_none, Bool.and_eq_false_imp, bne_iff_ne,
      beq_eq_false_iff_ne]
    exact fun hne heq => hne (hw.slugs k p org' org hk horg heq.symm)
  simp only [Stmt.exec, horg, hfree]
  exact ⟨_, rfl⟩

theorem organizationUpdate_alike (h : w₁.SameTenant p w₂) (h₁ : w₁.Constrained)
    (h₂ : w₂.Constrained) {d : OrganizationPatch} (hd : d.slug = none) :
    ExecAlike (.organizationUpdate p d) w₁ w₂ := by
  cases horg : w₁.organizations.get? p with
  | none => simp only [ExecAlike, Stmt.exec, ← h.organization, horg]
  | some org =>
    obtain ⟨t₁, ht₁⟩ := organizationUpdate_ok h₁ horg hd
    obtain ⟨t₂, ht₂⟩ := organizationUpdate_ok h₂ (h.organization ▸ horg) hd
    rw [ExecAlike, ht₁, ht₂]
    rfl

theorem require_alike {α : Type} {t₁ t₂ : Table α} {id : Id} {l : Stmt} {v₁ v₂ : World}
    (h : (t₁.get? id).isSome = (t₂.get? id).isSome) (h₁ : l.exec w₁ = World.require t₁ id v₁)
    (h₂ : l.exec w₂ = World.require t₂ id v₂) : ExecAlike l w₁ w₂ := by
  rw [ExecAlike, h₁, h₂, World.require, World.require, ← h]
  cases (t₁.get? id).isSome <;> rfl

theorem alike_execute_ret {α : Type} {l : Stmt} {a : α} (h : ExecAlike l w₁ w₂) :
    Alike ((execute l).bind fun _ => .ret a) w₁ w₂ :=
  h.bind rfl (fun _ => trivial) fun _ _ _ _ => Prog.Together.ret trivial

theorem restoreOrganization_alike (h : w₁.SameTenant p w₂) (h₁ : w₁.Constrained)
    (h₂ : w₂.Constrained) :
    Alike (restoreOrganization p) w₁ w₂ := by
  refine alike_query_bind (by rw [h.organization]) ?_
  split
  · exact Prog.Together.throw trivial
  · exact alike_execute_ret (organizationUpdate_alike h h₁ h₂ rfl)

/-- The states agree, and the slugs of each are its own. -/
structure Kin (o : Id) (w₁ w₂ : World) : Prop where
  same : w₁.SameBut o w₂
  constrained₁ : w₁.Constrained
  constrained₂ : w₂.Constrained

theorem stripeCancel_paired (sid : Id) :
    (execute (.stripeCancel sid)).Paired Stmt.exec (Kin o) := by
  refine .send (fun _ _ _ => rfl) fun w₁ w₂ h => ?_
  simp only [Stmt.exec, h.same.stripe]
  split
  · refine .inr ⟨_, _, rfl, rfl, ?_, ?_, ?_⟩
    · exact ⟨by rw [h.same.rest], h.same.organizations, h.same.members, h.same.projects,
        h.same.invitations, h.same.featureFlagOverrides, h.same.subscriptions⟩
    · exact ⟨h.constrained₁.slugs, h.constrained₁.subscriptions, h.constrained₁.tokens⟩
    · exact ⟨h.constrained₂.slugs, h.constrained₂.subscriptions, h.constrained₂.tokens⟩
  · exact .inl ⟨_, rfl, rfl⟩

theorem subscriptionCancel_paired (ids : List Id) (instant : Time) :
    (execute (.subscriptionCancel ids instant)).Paired Stmt.exec (Kin o) := by
  have hconstrained : ∀ {w : World}, w.Constrained → World.Constrained { w with
      subscriptions := w.subscriptions.updateWhere (fun k _ => ids.contains k)
        (fun r => { r with status := .canceled, canceledAt := some instant }) } := by
    refine fun hw => ⟨hw.slugs, fun k s hk => ?_, hw.tokens⟩
    obtain ⟨s₀, hs₀, rfl⟩ := Option.map_eq_some_iff.mp ((Table.get?_updateWhere ..).symm.trans hk)
    have hxor := hw.subscriptions k s₀ hs₀
    split
    · exact hxor
    · exact hxor
  refine .send (fun _ _ _ => rfl) fun w₁ w₂ h =>
    .inr ⟨_, _, rfl, rfl, ?_, hconstrained h.constrained₁,
    hconstrained h.constrained₂⟩
  refine ⟨by rw [h.same.rest], h.same.organizations, h.same.members, h.same.projects,
    h.same.invitations, h.same.featureFlagOverrides, ?_⟩
  dsimp only
  rw [Table.filter_updateWhere, Table.filter_updateWhere, h.same.subscriptions]
  · exact fun _ _ => rfl
  · exact fun _ _ => rfl

theorem paired_query_bind {α β : Type} {R : World → World → Prop} {view : World → α} {k : α → Req β}
    (hview : ∀ w₁ w₂, R w₁ w₂ → view w₁ = view w₂) (hk : ∀ a, (k a).Paired Stmt.exec R) :
    ((query view).bind k).Paired Stmt.exec R :=
  .bind (.send hview fun w₁ w₂ h => .inr ⟨w₁, w₂, rfl, rfl, h⟩) hk

theorem cancelAtStripe_paired (subscriptions : List (Id × Subscription)) :
    (cancelAtStripe subscriptions).Paired Stmt.exec (Kin o) := by
  induction subscriptions with
  | nil => exact .ret
  | cons r rest ih =>
    exact .bind (.tryCatch (stripeCancel_paired _) fun _ => .throw) fun _ => ih

theorem deleteOrganization_alike (h : Kin o w₁ w₂) (hne : p ≠ o) :
    Alike (deleteOrganization env p) w₁ w₂ := by
  have hcancel : (when env.stripeConfigured (do
      let liveSubscriptions ← query (fun w => w.subscriptions.filter (fun _ s =>
        s.organizationId == some p && liveSubscriptionStatuses.contains s.status))
      cancelAtStripe liveSubscriptions
      when (!liveSubscriptions.isEmpty) (do
        let now ← date
        execute (.subscriptionCancel (liveSubscriptions.map (·.1)) now)))).Paired Stmt.exec
        (Kin o) := by
    unfold when
    split
    · refine paired_query_bind (fun w₁ w₂ h => ?_) fun live => .bind (cancelAtStripe_paired live)
        fun _ => ?_
      · refine Table.filter_congr (q := fun _ s => s.organizationId == some p) (fun _ s hs => ?_)
          (h.same.tenant hne).subscriptions
        simp only [Bool.and_eq_true] at hs
        exact hs.1
      · split
        · exact paired_query_bind (fun _ _ h => h.same.now) fun now =>
            subscriptionCancel_paired _ now
        · exact .ret
    · exact .ret
  refine (hcancel w₁ w₂ h).bind (fun _ t₁ t₂ ht => ?_) fun _ _ _ _ => trivial
  refine alike_query_bind ht.same.now ?_
  exact alike_execute_ret
    (organizationUpdate_alike (ht.same.tenant hne) ht.constrained₁ ht.constrained₂ rfl)

end Organizations

section Members

variable {env : Env} {o p : Id} {w₁ w₂ : World}

theorem member_both (h : w₁.SameTenant p w₂) {u k : Id} {m : OrganizationMember}
    (hm : w₁.membership p u = some (k, m)) :
    w₁.members.get? k = some m ∧ w₂.members.get? k = some m := by
  obtain ⟨hk, _⟩ := membership_some hm
  obtain ⟨hk₂, _⟩ := membership_some (membership_same h u ▸ hm)
  exact ⟨hk, hk₂⟩

theorem transferOwnership_alike (h : w₁.SameTenant p w₂) (currentOwnerId newOwnerId : Id) :
    Alike (transferOwnership p currentOwnerId newOwnerId) w₁ w₂ := by
  unfold transferOwnership
  split
  · exact Prog.Together.throw trivial
  · refine alike_query_bind (membership_same h newOwnerId) ?_
    split
    · exact Prog.Together.throw trivial
    · refine alike_send (by rw [h.organization, h.now]) ?_
      simp only [ExecAlike, Stmt.exec, World.hasOrganization, h.organization, membership_same h]
      by_cases hnone : (!(w₂.organizations.get? p).isSome) = true
      · simp only [hnone, if_true, Except.map]
      · simp only [hnone]
        cases w₂.membership p newOwnerId with
        | none => rfl
        | some new => cases w₂.membership p currentOwnerId <;> rfl

theorem updateMemberRole_alike (h : w₁.SameTenant p w₂)
    (hviews : ∀ k, w₁.userView k = w₂.userView k) (userId : Id) (role : AssignableRole) :
    Alike (updateMemberRole p userId role) w₁ w₂ := by
  refine alike_query_bind (membership_same h userId) ?_
  split
  · exact Prog.Together.throw trivial
  · rename_i id membership hfound
    split
    · exact Prog.Together.throw trivial
    · obtain ⟨hm₁, hm₂⟩ := member_both h hfound
      refine alike_send ?_ (require_alike (by rw [hm₁, hm₂]) rfl rfl)
      simp only [hm₁, hm₂, hviews]

theorem removeMember_alike (h : w₁.SameTenant p w₂) (userId : Id) :
    Alike (removeMember p userId) w₁ w₂ := by
  refine alike_query_bind (membership_same h userId) ?_
  split
  · exact Prog.Together.throw trivial
  · rename_i id membership hfound
    split
    · exact Prog.Together.throw trivial
    · obtain ⟨hm₁, hm₂⟩ := member_both h hfound
      exact alike_execute_ret (require_alike (by rw [hm₁, hm₂]) rfl rfl)

end Members

section Invitations

variable {env : Env} {o p u : Id} {w₁ w₂ : World}

theorem invitation_both (h : w₁.SameBut o w₂) {k : Id} {i : OrganizationInvitation}
    (hne : i.organizationId ≠ o) :
    w₁.invitations.get? k = some i ↔ w₂.invitations.get? k = some i :=
  Table.get?_congr h.invitations (bne_iff_ne.mpr hne)

theorem invitationView_same (h : w₁.SameBut o w₂) (k : Id) {i : OrganizationInvitation}
    (hne : i.organizationId ≠ o) :
    w₁.invitationView k i = w₂.invitationView k i := by
  rw [World.invitationView, World.invitationView, h.organization hne, h.userView]

theorem savedInvitation_same (h : w₁.SameBut o w₂) {k : Id} {i : OrganizationInvitation}
    (hk : w₁.invitations.get? k = some i) (hne : i.organizationId ≠ o) (data : InvitationPatch) :
    w₁.savedInvitation k data = w₂.savedInvitation k data := by
  rw [World.savedInvitation, World.savedInvitation, hk, (invitation_both h hne).mp hk,
    Option.map_some, Option.map_some, h.now, Option.getD_some, Option.getD_some]
  exact congrArg _ (invitationView_same h k hne)

theorem hasUser_same (h : w₁.SameBut o w₂) : w₁.hasUser = w₂.hasUser := by
  funext k
  rw [World.hasUser, World.hasUser, h.users]

theorem invitationUpdate_alike (h : w₁.SameBut o w₂) {k : Id} {i : OrganizationInvitation}
    (hk : w₁.invitations.get? k = some i) (hne : i.organizationId ≠ o) (data : InvitationPatch) :
    ExecAlike (.invitationUpdate k data) w₁ w₂ := by
  simp only [ExecAlike, Stmt.exec, hk, (invitation_both h hne).mp hk, hasUser_same h,
    Option.isNone_some, Bool.false_eq_true, if_false]
  split <;> simp only [Except.map]

theorem saveInvitation_alike (h : w₁.SameBut o w₂) {k : Id} {i : OrganizationInvitation}
    (hk : w₁.invitations.get? k = some i) (hne : i.organizationId ≠ o) (data : InvitationPatch) :
    Alike (saveInvitation k data) w₁ w₂ :=
  alike_send (savedInvitation_same h hk hne data) (invitationUpdate_alike h hk hne data)

theorem cancelInvitation_alike (h : w₁.SameBut o w₂) (hne : p ≠ o) (invitationId : Id) :
    Alike (cancelInvitation p invitationId) w₁ w₂ := by
  have hfound : (w₁.invitations.get? invitationId).filter (fun i => i.organizationId == p) =
      (w₂.invitations.get? invitationId).filter (fun i => i.organizationId == p) := by
    refine Option.ext fun i => ?_
    simp only [Option.filter_eq_some_iff, beq_iff_eq]
    exact and_congr_left fun hi => invitation_both h (hi ▸ hne)
  refine alike_query_bind hfound ?_
  split
  · exact Prog.Together.throw trivial
  · rename_i i hi
    obtain ⟨hk, ho⟩ := Option.filter_eq_some_iff.mp hi
    have hother : i.organizationId ≠ o := beq_iff_eq.mp ho ▸ hne
    split
    · exact Prog.Together.throw trivial
    · exact alike_query_bind h.now (saveInvitation_alike h hk hother _)

theorem openInvitation_alike (h : w₁.SameBut o w₂) {raw : Nat}
    (h₁ : ∀ k i, w₁.invitations.get? k = some i → i.token = hashToken raw → i.organizationId ≠ o)
    (h₂ : ∀ k i, w₂.invitations.get? k = some i → i.token = hashToken raw → i.organizationId ≠ o)
    (userId : Id) :
    Together (fun r t₁ t₂ => ∀ x, r = .ok x → t₁ = w₁ ∧ t₂ = w₂ ∧
      w₁.invitations.get? x.1 = some x.2 ∧
      x.2.organizationId ≠ o) (openInvitation userId raw) w₁ w₂ := by
  have hfound : w₁.invitations.find? (fun _ i => i.token == hashToken raw) =
      w₂.invitations.find? (fun _ i => i.token == hashToken raw) := by
    refine Table.find?_congr_of (q := fun _ i => i.organizationId != o) ?_ ?_ h.invitations
    · exact fun k i hk hi => bne_iff_ne.mpr (h₁ k i hk (beq_iff_eq.mp hi))
    · exact fun k i hk hi => bne_iff_ne.mpr (h₂ k i hk (beq_iff_eq.mp hi))
  refine together_query_bind hfound ?_
  split
  · exact Prog.Together.throw fun _ heq => by cases heq
  · rename_i id i hi
    obtain ⟨hk, htoken⟩ := Table.find?_some hi
    have hne := h₁ id i hk (beq_iff_eq.mp htoken)
    split
    · exact Prog.Together.throw fun _ heq => by cases heq
    · refine together_query_bind h.now ?_
      split
      · exact (invitationUpdate_alike h hk hne _).bind rfl (fun _ _ heq => by cases heq)
          fun _ _ _ _ => Prog.Together.throw fun _ heq => by cases heq
      · refine together_query_bind (by rw [h.users]) ?_
        split
        · exact Prog.Together.throw fun _ heq => by cases heq
        · refine Prog.Together.ret fun x hx => ?_
          cases hx
          exact ⟨rfl, rfl, hk, hne⟩

theorem invitationAccept_alike (h : w₁.SameBut o w₂) {k : Id} {i : OrganizationInvitation}
    (hk : w₁.invitations.get? k = some i) (hne : i.organizationId ≠ o) (d : InvitationPatch)
    (userId : Id) (role : OrgRole) :
    ExecAlike (.invitationAccept k d i.organizationId userId role) w₁ w₂ := by
  have hk₂ := (invitation_both h hne).mp hk
  simp only [ExecAlike, Stmt.exec, World.hasOrganization, hasUser_same h, hk, hk₂,
    membership_same (h.tenant hne), h.organization hne, Option.isNone_some, Bool.false_eq_true,
    if_false]
  by_cases hinvitee : (!d.inviteeId.all w₂.hasUser) = true
  · simp only [hinvitee, if_true, Except.map]
  by_cases hmember : (w₂.membership i.organizationId userId).isSome = true
  · simp only [hinvitee, hmember, if_true, Bool.false_eq_true, if_false, Except.map]
  by_cases hparents : (!(w₂.organizations.get? i.organizationId).isSome ||
    !w₂.hasUser userId) = true
  · simp only [hinvitee, hmember, hparents, if_true, Bool.false_eq_true, if_false, Except.map]
  · simp only [hinvitee, hmember, hparents, Bool.false_eq_true, if_false, Except.map]

theorem acceptInvitation_alike (h : w₁.SameBut o w₂) {raw : Nat}
    (h₁ : ∀ k i, w₁.invitations.get? k = some i → i.token = hashToken raw → i.organizationId ≠ o)
    (h₂ : ∀ k i, w₂.invitations.get? k = some i → i.token = hashToken raw → i.organizationId ≠ o)
    (userId : Id) :
    Alike (acceptInvitation userId raw) w₁ w₂ := by
  refine (openInvitation_alike h h₁ h₂ userId).bind ?_ fun _ _ _ _ => trivial
  rintro ⟨id, i⟩ _ _ hopen
  obtain ⟨rfl, rfl, hk, hne⟩ := hopen _ rfl
  refine alike_query_bind (membership_same (h.tenant hne) userId) (alike_query_bind h.now ?_)
  split
  · exact (invitationUpdate_alike h hk hne _).bind rfl (fun _ => trivial) fun _ _ _ _ =>
      Prog.Together.throw trivial
  · exact alike_send (savedInvitation_same h hk hne _) (invitationAccept_alike h hk hne _ userId _)

theorem declineInvitation_alike (h : w₁.SameBut o w₂) {raw : Nat}
    (h₁ : ∀ k i, w₁.invitations.get? k = some i → i.token = hashToken raw → i.organizationId ≠ o)
    (h₂ : ∀ k i, w₂.invitations.get? k = some i → i.token = hashToken raw → i.organizationId ≠ o)
    (userId : Id) :
    Alike (declineInvitation userId raw) w₁ w₂ := by
  refine (openInvitation_alike h h₁ h₂ userId).bind ?_ fun _ _ _ _ => trivial
  rintro ⟨id, i⟩ _ _ hopen
  obtain ⟨rfl, rfl, hk, hne⟩ := hopen _ rfl
  exact alike_query_bind h.now (saveInvitation_alike h hk hne _)

/-- No token is drawn twice, so a new one clashes with no other organization's. -/
theorem invitationCreate_alike (h : Kin o w₁ w₂) {row : OrganizationInvitation}
    (hne : row.organizationId ≠ o) (htoken : row.token = hashToken w₁.nonce) :
    ExecAlike (.invitationCreate row) { w₁ with nonce := w₁.nonce + 1 }
      { w₂ with nonce := w₂.nonce + 1 } := by
  have hclash : ∀ {w : World}, w.Constrained → w.nonce = w₁.nonce → ∀ k j,
    w.invitations.get? k = some j →
      (row.token == j.token || (row.status == .pending && j.status == .pending &&
        row.organizationId == j.organizationId && row.inviteeEmail == j.inviteeEmail)) = true →
      (j.organizationId != o) = true := by
    intro w hw hnonce k j hj hsame
    rcases Bool.or_eq_true _ _ ▸ hsame with hsame | hsame
    · obtain ⟨n, hn, hdrawn⟩ := hw.tokens k j hj
      rw [htoken, hdrawn, beq_iff_eq, hashToken_inj] at hsame
      exact absurd (hsame ▸ hnonce ▸ hn) (Nat.lt_irrefl _)
    · simp only [Bool.and_eq_true, beq_iff_eq] at hsame
      exact bne_iff_ne.mpr (hsame.1.2 ▸ hne)
  have hany := Table.any_congr_of (hclash h.constrained₁ rfl)
    (hclash h.constrained₂ h.same.nonce.symm) h.same.invitations
  have husers : ∀ w : World, World.hasUser { w with nonce := w.nonce + 1 } = w.hasUser :=
    fun _ => rfl
  simp only [ExecAlike, Stmt.exec, World.hasOrganization, husers, hasUser_same h.same,
    h.same.organization hne, hany]
  by_cases hparents : (!(w₂.organizations.get? row.organizationId).isSome ||
    !w₂.hasUser row.inviterId || !row.inviteeId.all w₂.hasUser) = true
  · simp only [hparents, if_true, Except.map]
  · simp only [hparents, Bool.false_eq_true, if_false]
    by_cases hclashes : w₂.invitations.any (fun _ j => row.token == j.token ||
      (row.status == .pending &&
        j.status == .pending && row.organizationId == j.organizationId &&
        row.inviteeEmail == j.inviteeEmail)) = true
    · simp only [hclashes, if_true, Except.map]
    · simp only [hclashes, Bool.false_eq_true, if_false, Except.map]

theorem createInvitation_alike (h : Kin o w₁ w₂) {tenant : Tenant} (hne : tenant.id ≠ o)
    (inviterId : Id) (email : String) (role : AssignableRole) :
    Alike (createInvitation env tenant inviterId email role) w₁ w₂ := by
  have ht := h.same.tenant hne
  refine alike_query_bind ?_ ?_
  · simp only [h.same.users, membership_same ht]
  split
  · exact Prog.Together.throw trivial
  refine alike_query_bind ?_ ?_
  · have hother : ∀ w : World, ∀ k i, w.invitations.get? k = some i →
      (i.organizationId == tenant.id &&
        i.inviteeEmail == normalizeEmail env email && i.status == .pending) = true →
        (i.organizationId != o) = true := by
      intro w k i _ hi
      simp only [Bool.and_eq_true, beq_iff_eq] at hi
      exact bne_iff_ne.mpr (hi.1.1 ▸ hne)
    exact Table.any_congr_of (hother w₁) (hother w₂) h.same.invitations
  split
  · exact Prog.Together.throw trivial
  refine Prog.Together.send_bind h.same.nonce (.inr ⟨_, _, rfl, rfl, ?_⟩)
  refine Prog.Together.send_bind h.same.now (.inr ⟨_, _, rfl, rfl, ?_⟩)
  refine alike_tryCatch_send_bind ?_ (invitationCreate_alike h hne rfl)
    (fun _ _ => ⟨rfl, trivial⟩) fun e => ?_
  · simp only [World.invitationView, World.userView, h.same.organization hne, h.same.users,
      h.same.now, h.same.nonce]
  · split <;> exact Prog.Together.throw trivial

end Invitations

section Slugs

variable {env : Env} {o p : Id} {w w₁ w₂ : World}

/-- Two answers of which a conflict about a slug is the only difference. -/
def AlikeButSlug {α : Type} (r : Req α) (w₁ w₂ : World) : Prop :=
  (r.runs w₁).1 = (r.runs w₂).1 ∨ (r.runs w₁).1 = .error slugAlreadyTaken ∨
    (r.runs w₂).1 = .error slugAlreadyTaken

theorem AlikeButSlug.reads_bind {α β : Type} {Q : α → Prop} {p : Req α} {k : α → Req β}
    (hp : ReadsSame Q p w₁ w₂) (hk : ∀ a, Q a → AlikeButSlug (k a) w₁ w₂) :
    AlikeButSlug (p.bind k) w₁ w₂ := by
  obtain ⟨hsame, h₁, h₂, hQ⟩ := hp
  unfold AlikeButSlug Req.runs
  rw [Prog.run_bind, Prog.run_bind]
  cases hr₁ : p.run Stmt.exec w₁ with
  | mk r₁ t₁ =>
    cases hr₂ : p.run Stmt.exec w₂ with
    | mk r₂ t₂ =>
      rw [hr₁, hr₂] at hsame
      rw [hr₁] at h₁ hQ
      rw [hr₂] at h₂
      simp only [] at hsame h₁ h₂ hQ
      subst hsame h₁ h₂
      cases r₁ with
      | ok a => exact hk a (hQ a rfl)
      | error e => exact .inl rfl

theorem AlikeButSlug.map {α β : Type} {p : Req α} {f : α → β} (h : AlikeButSlug p w₁ w₂) :
    AlikeButSlug (p.bind fun a => .ret (f a)) w₁ w₂ := by
  have hmap : ∀ w, (Req.runs (p.bind fun a => .ret (f a)) w).1 = (p.runs w).1.map f := by
    intro w
    rw [Req.runs, Prog.run_bind, Req.runs]
    cases p.run Stmt.exec w with
    | mk r t => cases r <;> rfl
  unfold AlikeButSlug
  rw [hmap, hmap]
  rcases h with h | h | h
  · exact .inl (by rw [h])
  · exact .inr (.inl (by rw [h]; rfl))
  · exact .inr (.inr (by rw [h]; rfl))

theorem alikeButSlug_of_ends {r : Req OrgReply} {res : Except Err OrgReply}
    (h₁ : r.Ends Stmt.exec (fun a _ => a = .error slugAlreadyTaken ∨ a = res) w₁)
    (h₂ : r.Ends Stmt.exec (fun a _ => a = .error slugAlreadyTaken ∨ a = res) w₂) :
    AlikeButSlug r w₁ w₂ := by
  rcases h₁ with h₁ | h₁
  · exact .inr (.inl h₁)
  · rcases h₂ with h₂ | h₂
    · exact .inr (.inr h₂)
    · exact .inl (h₁.trans h₂.symm)

/-- The answers of a creation and of an update where no other row has the slug. -/
def createdOrganization (w : World) (userId : Id) (name slug : String) : Except Err OrgReply :=
  if w.hasUser userId then .ok (.organization ⟨w.nonce, trim name, slug, userId, w.now, w.now⟩)
  else .error (.prisma .P2003)

def updatedOrganization (p : Id) (row : Option Organization) (now : Time)
    (data : OrganizationPatch) : Except Err OrgReply :=
  row.elim (.error (.prisma .P2025)) fun org =>
    .ok (.organization (orgView p { data.apply org with updatedAt := now }))

theorem createOrganization_answer (userId : Id) (name slug : String) :
    (createOrganization userId name slug).Ends Stmt.exec (fun a _ => a = .error slugAlreadyTaken ∨
      a = createdOrganization w userId name slug) w := by
  unfold createOrganization
  simp only [findLiveSlug, Prog.bind_eq, ends_query_bind]
  split
  · exact .inl rfl
  rw [Prog.tryCatch_eq, Prog.ends_tryCatch, send, Prog.ends_send]
  by_cases htaken : w.organizations.any (fun _ o => o.slug == slug) = true
  · simp only [Stmt.exec, htaken, if_true]
    exact .inl rfl
  by_cases huser : w.hasUser userId = true
  · simp only [Stmt.exec, htaken, huser, createdOrganization, Bool.false_eq_true, Bool.not_true,
      if_false, if_true]
    exact .inr trivial
  · simp only [Stmt.exec, htaken, huser, createdOrganization, Bool.false_eq_true, Bool.not_false,
      if_false, if_true]
    exact .inr rfl

theorem createOrganization_alike (h : w₁.SameBut o w₂) (userId : Id) (name slug : String) :
    AlikeButSlug (createOrganization userId name slug) w₁ w₂ := by
  refine alikeButSlug_of_ends (createOrganization_answer userId name slug) ?_
  rw [createdOrganization, World.hasUser, h.users, h.nonce, h.now]
  exact createOrganization_answer userId name slug

theorem updateOrganization_answer (name slug : Option String) :
    (updateOrganization p name slug).Ends Stmt.exec (fun a _ => a = .error slugAlreadyTaken ∨
      a = updatedOrganization p (w.organizations.get? p) w.now
      { name := name.map trim, slug }) w := by
  unfold updateOrganization
  refine Ends.bind (Q := fun r w' => w' = w ∧ ∀ e, r ≠ .error e) ?_ ?_ ?_
  · unfold slugConflict
    split
    · exact ⟨rfl, fun _ h => by cases h⟩
    · split
      · exact ⟨rfl, fun _ h => by cases h⟩
      · exact ⟨rfl, fun _ h => by cases h⟩
  · rintro conflict w ⟨rfl, _⟩
    split
    · exact .inl rfl
    rw [Prog.tryCatch_eq, Prog.ends_tryCatch, send, Prog.ends_send]
    cases horg : w.organizations.get? p with
    | none =>
      simp only [Stmt.exec, horg]
      exact .inr rfl
    | some org =>
      let data : OrganizationPatch := { name := name.map trim, slug }
      by_cases htaken : w.organizations.any
        (fun k o' => k != p && (data.apply org).slug == o'.slug) = true
      · simp only [Stmt.exec, horg, data, htaken, if_true]
        exact .inl rfl
      · simp only [Stmt.exec, horg, data, htaken, Bool.false_eq_true, if_false]
        exact .inr rfl
  · exact fun e _ h => absurd rfl (h.2 e)

theorem updateOrganization_alike (h : w₁.SameBut o w₂) (hne : p ≠ o) (name slug : Option String) :
    AlikeButSlug (updateOrganization p name slug) w₁ w₂ := by
  refine alikeButSlug_of_ends (updateOrganization_answer name slug) ?_
  rw [h.organization hne, h.now]
  exact updateOrganization_answer name slug

end Slugs

section Listings

variable {env : Env} {o p u : Id} {w₁ w₂ : World} {S α β γ : Type}

theorem listing_alike_bind {le : α → α → Bool} {q : ListParams S} {rows : World → List α}
    {view : World → α → β} {k : List β × PageMeta → Req γ} (hrows : rows w₁ = rows w₂)
    (hview : ∀ r ∈ rows w₁, view w₁ r = view w₂ r) (hk : ∀ x, Alike (k x) w₁ w₂) :
    Alike ((listing le q rows view).bind k) w₁ w₂ := by
  simp only [listing, Prog.bind_eq, Prog.bind_assoc]
  refine alike_query_bind ?_ (alike_query_bind (by rw [hrows]) (hk _))
  rw [← hrows]
  refine List.map_congr_left fun r hr => hview r ?_
  exact List.mem_mergeSort.mp (List.mem_of_mem_drop (List.mem_of_mem_take hr))

theorem organizationsOf_same (h : w₁.SameBut o w₂) (h₁ : Outside o u w₁) (h₂ : Outside o u w₂) :
    w₁.organizationsOf u = w₂.organizationsOf u := by
  rw [World.organizationsOf, World.organizationsOf, ← h.memberships h₁ h₂]
  refine List.filterMap_congr fun r hr => ?_
  obtain ⟨hk, hu⟩ := Table.mem_filter.mp hr
  rw [h.organization fun ho => h₁.notMember r.1 r.2 hk ho (beq_iff_eq.mp hu)]

theorem listOrganizations_alike (h : w₁.SameBut o w₂) (h₁ : Outside o u w₁) (h₂ : Outside o u w₂)
    (q : ListParams OrganizationSort) : Alike (listOrganizations env u q) w₁ w₂ :=
  listing_alike_bind (by rw [organizationsOf_same h h₁ h₂]) (fun _ _ => rfl) fun _ =>
    Prog.Together.ret trivial

theorem listMembers_alike (h : w₁.SameBut o w₂) (hne : p ≠ o) (q : ListParams MemberSort) :
    Alike (listMembers env p q) w₁ w₂ := by
  refine listing_alike_bind ?_ (fun r _ => ?_) fun _ => Prog.Together.ret trivial
  · rw [World.liveMembers, World.liveMembers, (h.tenant hne).members, h.users]
  · rw [h.userView]

theorem listInvitations_alike (h : w₁.SameBut o w₂) (hne : p ≠ o) (q : ListParams InvitationSort) :
    Alike (listInvitations env p q) w₁ w₂ := by
  have hrows : w₁.invitations.filter (fun _ i => i.organizationId == p) =
      w₂.invitations.filter (fun _ i => i.organizationId == p) :=
    Table.filter_congr (fun _ i hi => by rw [beq_iff_eq.mp hi]; exact bne_iff_ne.mpr hne)
      h.invitations
  refine listing_alike_bind ?_ (fun r hr => ?_) fun _ => Prog.Together.ret trivial
  · simp only [hrows, World.inviterColumns, h.users]
  · obtain ⟨hk, ho⟩ := Table.mem_filter.mp (List.mem_filter.mp hr).1
    exact invitationView_same h r.1 (beq_iff_eq.mp ho ▸ hne)

theorem listMyInvitations_alike (h : w₁.SameBut o w₂) (h₁ : Outside o u w₁) (h₂ : Outside o u w₂)
    (q : ListParams InvitationSort) : Alike (listMyInvitations env u q) w₁ w₂ := by
  refine alike_query_bind (by rw [h.users]) ?_
  split
  · exact Prog.Together.throw trivial
  rename_i user huser
  obtain ⟨hx, _⟩ := Option.filter_eq_some_iff.mp huser
  have hother₁ : ∀ k i, w₁.invitations.get? k = some i →
      (i.inviteeEmail == user.email && i.status == .pending) = true →
        (i.organizationId != o) = true := by
    intro k i hk hi
    simp only [Bool.and_eq_true, beq_iff_eq] at hi
    exact bne_iff_ne.mpr fun ho => h₁.notInvited k i user hk ho hx hi.1
  have hother₂ : ∀ k i, w₂.invitations.get? k = some i →
      (i.inviteeEmail == user.email && i.status == .pending) = true →
        (i.organizationId != o) = true := by
    intro k i hk hi
    simp only [Bool.and_eq_true, beq_iff_eq] at hi
    exact bne_iff_ne.mpr fun ho => h₂.notInvited k i user hk ho (h.users ▸ hx) hi.1
  have hrows := Table.filter_congr_of hother₁ hother₂ h.invitations
  have hne : ∀ r ∈ w₁.invitations.filter (fun _ i => i.inviteeEmail == user.email &&
    i.status == .pending),
      r.2.organizationId ≠ o := by
    intro r hr
    obtain ⟨hk, hi⟩ := Table.mem_filter.mp hr
    exact bne_iff_ne.mp (hother₁ r.1 r.2 hk hi)
  refine listing_alike_bind ?_ (fun r hr => ?_) fun _ => Prog.Together.ret trivial
  · rw [← hrows]
    refine List.filter_congr fun r hr => ?_
    rw [World.organizationColumns, World.organizationColumns, h.organization (hne r hr)]
  · exact invitationView_same h r.1 (hne r (List.mem_filter.mp hr).1)

theorem listingRoute_alike (h : w₁.SameBut o w₂) {caller : Caller} (h₁ : Outside o caller.id w₁)
    (h₂ : Outside o caller.id w₂) (route : ListingRoute) :
    Alike (route.serve env caller) w₁ w₂ := by
  cases route with
  | listOrganizations q => exact listOrganizations_alike h h₁ h₂ q
  | listMembers orgId q =>
    exact alike_reads_bind (requireTenant_outside h h₁ h₂) fun tenant hne =>
      listMembers_alike h hne q
  | listInvitations orgId q =>
    exact alike_reads_bind (tenantWithRole_outside h h₁ h₂ _) fun tenant hne =>
      listInvitations_alike h hne q
  | listMyInvitations q =>
    exact alike_reads_bind (requireVerifiedEmail_same (by rw [h.users])) fun _ _ =>
      listMyInvitations_alike h h₁ h₂ q

end Listings

section Billing

variable {env : Env} {stripe : StripeApi} {o p u : Id} {w₁ w₂ : World}

theorem ownSubscriptions_same (h : w₁.SameTenant p w₂) (statuses : List SubscriptionStatus) :
    w₁.subscriptions.filter (fun _ s => s.organizationId == some p && statuses.contains s.status) =
      w₂.subscriptions.filter (fun _ s => s.organizationId == some p &&
        statuses.contains s.status) := by
  refine Table.filter_congr (q := fun _ s => s.organizationId == some p) (fun _ s hs => ?_)
    h.subscriptions
  simp only [Bool.and_eq_true] at hs
  exact hs.1

theorem subscriptionView_same (h : w₁.SameBut o w₂) (id : Id) (s : Subscription) :
    w₁.subscriptionView id s = w₂.subscriptionView id s := by
  rw [World.subscriptionView, World.subscriptionView, h.plans]

theorem getOrgSubscription_alike (h : w₁.SameBut o w₂) (hne : p ≠ o) (first : NewestFirst) :
    Alike (getOrgSubscription first p) w₁ w₂ := by
  refine alike_query_bind ?_ (Prog.Together.ret trivial)
  rw [ownSubscriptions_same (h.tenant hne)]
  exact congrArg (fun f => Option.map f _) (funext fun r => subscriptionView_same h r.1 r.2)

theorem orThrow_alike_bind {α β : Type} {e : Except Err α} {k : α → Req β}
    (hk : ∀ a, Alike (k a) w₁ w₂) :
    Alike ((orThrow e).bind k) w₁ w₂ := alike_reads_bind (orThrow_same e) fun a _ => hk a

theorem resolveStripeCustomerId_alike (existing : Option Id) (data : CustomerData)
    {persist : Id → Req Unit} (hpersist : ∀ id, Alike ((persist id).bind fun _ => .ret id) w₁ w₂) :
    Alike (resolveStripeCustomerId stripe existing data persist) w₁ w₂ := by
  have hcreate : Alike ((orThrow (stripe.createCustomer data)).bind fun id =>
      (persist id).bind fun _ => .ret id) w₁ w₂ :=
    orThrow_alike_bind hpersist
  cases existing with
  | none => exact hcreate
  | some id =>
    simp only [resolveStripeCustomerId]
    cases stripe.retrieveCustomer id with
    | found => exact Prog.Together.ret trivial
    | resourceMissing => exact hcreate
    | failed err => exact Prog.Together.throw trivial

theorem createOrgCheckoutSession_alike (h : Kin o w₁ w₂) (hne : p ≠ o) (body : CheckoutBody) :
    Alike (createOrgCheckoutSession env stripe p body) w₁ w₂ := by
  refine alike_query_bind (by rw [h.same.plans]) ?_
  split
  · exact Prog.Together.throw trivial
  split
  · exact Prog.Together.throw trivial
  refine alike_query_bind (by rw [h.same.organization hne, h.same.users]) ?_
  split
  · exact Prog.Together.throw trivial
  refine (resolveStripeCustomerId_alike _ _ fun id => alike_execute_ret ?_).bind (fun _ _ _ _ => ?_)
    fun _ _ _ _ => trivial
  · exact organizationUpdate_alike (h.same.tenant hne) h.constrained₁ h.constrained₂ rfl
  · exact orThrow_alike_bind fun _ => Prog.Together.ret trivial

theorem createOrgPortalSession_alike (h : w₁.SameBut o w₂) (hne : p ≠ o) (returnUrl : String) :
    Alike (createOrgPortalSession env stripe p returnUrl) w₁ w₂ := by
  refine alike_query_bind (by rw [h.organization hne]) ?_
  split
  · exact Prog.Together.throw trivial
  split
  · exact Prog.Together.throw trivial
  split
  · exact Prog.Together.throw trivial
  · exact orThrow_alike_bind fun _ => Prog.Together.ret trivial

theorem cancelOrgSubscription_alike (h : w₁.SameBut o w₂) (hne : p ≠ o) (first : NewestFirst) :
    Alike (cancelOrgSubscription env first p) w₁ w₂ := by
  refine alike_query_bind ?_ ?_
  · rw [World.cancelable, World.cancelable, ownSubscriptions_same (h.tenant hne)]
  split
  · exact Prog.Together.throw trivial
  rename_i id subscription hfound
  split
  · exact Prog.Together.throw trivial
  obtain ⟨hk, hown⟩ := Table.mem_filter.mp (first.mem hfound)
  simp only [Bool.and_eq_true, beq_iff_eq] at hown
  have hk₂ : w₂.subscriptions.get? id = some subscription :=
    (Table.get?_congr h.subscriptions (bne_iff_ne.mpr fun heq =>
      hne (Option.some.inj (hown.1.symm.trans heq)))).mp hk
  have hcancel : ExecAlike (.stripeCancel subscription.stripeSubscriptionId) w₁ w₂ := by
    simp only [ExecAlike, Stmt.exec, h.stripe]
    split <;> simp only [*, Except.map]
  refine hcancel.bind rfl (fun _ => trivial) fun t₁ t₂ hexec₁ hexec₂ => ?_
  have heff₁ := exec_effect hexec₁
  have heff₂ := exec_effect hexec₂
  refine Prog.Together.send_bind (heff₁.now.trans (h.now.trans heff₂.now.symm))
    (.inr ⟨t₁, t₂, rfl, rfl, ?_⟩)
  refine Prog.Together.send_bind ?_ (.inr ⟨_, _, rfl, rfl, ?_⟩)
  · have hrow₁ : t₁.subscriptions.get? id = some subscription := heff₁.subscriptions ▸ hk
    have hrow₂ : t₂.subscriptions.get? id = some subscription := heff₂.subscriptions ▸ hk₂
    simp only [hrow₁, hrow₂, Option.map_some, World.subscriptionView, heff₁.plans,
      heff₂.plans, h.plans]
  · split
    · exact Prog.Together.throw trivial
    · exact Prog.Together.ret trivial

theorem billingRoute_alike (h : Kin o w₁ w₂) {tenant : Tenant} (hne : tenant.id ≠ o)
    (route : BillingRoute) :
    Alike (route.serve env stripe tenant) w₁ w₂ := by
  cases route with
  | getOrgSubscription first => exact getOrgSubscription_alike h.same hne first
  | createOrgCheckout body =>
    exact alike_reads_bind (requireOrgRole_same _ tenant) fun _ _ =>
      createOrgCheckoutSession_alike h hne body
  | createOrgPortal returnUrl =>
    exact alike_reads_bind (requireOrgRole_same _ tenant) fun _ _ =>
      createOrgPortalSession_alike h.same hne returnUrl
  | cancelOrgSubscription first =>
    refine alike_reads_bind (requireOrgRole_same _ tenant) fun _ _ => ?_
    exact (cancelOrgSubscription_alike h.same hne first).bind
      (fun _ _ _ _ => Prog.Together.ret trivial)
      fun _ _ _ _ => trivial

end Billing

section Routes

variable {env : Env} {stripe : StripeApi} {o u p : Id} {w₁ w₂ : World}

variable {orgFirst ownerFirst : NewestFirst}

theorem planCodeFor_same (h : Kin o w₁ w₂) (hne : p ≠ o) :
    w₁.planCodeFor orgFirst ownerFirst p = w₂.planCodeFor orgFirst ownerFirst p := by
  have ht := h.same.tenant hne
  have howned : w₁.ownerSubscribes p = w₂.ownerSubscribes p := by
    funext s
    rw [World.ownerSubscribes, World.ownerSubscribes, ht.organization]
  have hpersonal : ∀ {w : World}, w.Constrained → ∀ k s, w.subscriptions.get? k = some s →
      w₁.ownerSubscribes p s = true → (s.organizationId != some o) = true := by
    intro w hw k s hk hs
    obtain ⟨org, _, hu⟩ := (Option.any_eq_true _ _).mp hs
    rw [personal_notOrganization (hw.subscriptions k s hk) (beq_iff_eq.mp hu)]
    rfl
  have howner : w₁.activeSubscription ownerFirst (w₁.ownerSubscribes p) =
      w₂.activeSubscription ownerFirst (w₁.ownerSubscribes p) :=
    activeSubscription_same
      (Table.filter_congr_of (hpersonal h.constrained₁) (hpersonal h.constrained₂)
      h.same.subscriptions) fun _ _ _ _ => by rw [h.same.plans]
  rw [World.planCodeFor, World.planCodeFor, ← howned, howner,
    activeSubscription_same ht.subscriptions fun _ _ _ _ => by rw [h.same.plans]]

theorem World.SameRollout.of_other (h : Kin o w₁ w₂) (hne : p ≠ o) :
    w₁.SameRollout p orgFirst ownerFirst w₂ :=
  ⟨(h.same.tenant hne).featureFlagOverrides, planCodeFor_same h hne⟩

theorem evaluateFlagFor_alike (hflags : w₁.featureFlags = w₂.featureFlags) (key : String)
    {orgId : Option Id}
    (hrollout : ∀ p, orgId = some p → w₁.SameRollout p orgFirst ownerFirst w₂) :
    Alike (evaluateFlagFor env key orgId orgFirst ownerFirst) w₁ w₂ := by
  cases orgId with
  | none =>
    have hflag : Alike (evaluateFlag env key none none) w₁ w₂ := by
      refine alike_query_bind (by rw [hflags]) ?_
      split
      · exact Prog.Together.ret trivial
      · split
        · exact Prog.Together.ret trivial
        · exact orThrow_alike_bind fun _ => Prog.Together.ret trivial
    exact Prog.Together.bind (p := evaluateFlag env key none none) hflag
      (fun _ _ _ _ => Prog.Together.ret trivial)
      fun _ _ _ _ => trivial
  | some p =>
    have hsame := hrollout p rfl
    have hcode : ReadsSame (fun _ => True) (organizationPlanCode orgFirst ownerFirst p) w₁ w₂ := by
      have hruns := organizationPlanCode_runs w₁ orgFirst ownerFirst p
      have hruns₂ := organizationPlanCode_runs w₂ orgFirst ownerFirst p
      rw [Req.runs] at hruns hruns₂
      unfold ReadsSame Prog.ReadsSame Prog.Together
      rw [hruns, hruns₂]
      exact ⟨by rw [hsame.planCode], rfl, rfl, fun _ _ => trivial⟩
    exact alike_reads_bind hcode fun planCode _ =>
      alike_reads_bind (evaluateFlag_same hflags hsame.overrides key planCode) fun _ _ =>
        Prog.Together.ret trivial

theorem projectRoute_alike (h : Kin o w₁ w₂) {caller : Caller} (h₁ : Outside o caller.id w₁)
    (h₂ : Outside o caller.id w₂) (route : ProjectRoute) :
    Alike ((requireTenant p caller).bind fun tenant => route.serve env caller tenant) w₁ w₂ :=
  alike_reads_bind (requireTenant_outside h.same h₁ h₂) fun _ hne =>
    (projectRoute_serve (h.same.tenant hne) (h.same.caller h.constrained₁ h.constrained₂ caller.id)
      (fun _ _ _ _ => by rw [h.same.plans]) rfl route).weaken fun _ _ _ _ => trivial

theorem orgRoute_alike (h : Kin o w₁ w₂) {caller : Caller} (h₁ : Outside o caller.id w₁)
    (h₂ : Outside o caller.id w₂) {route : OrgRoute}
    (hcreate : ∀ name slug, route ≠ .createOrganization name slug)
    (hupdate : ∀ orgId name slug, route ≠ .updateOrganization orgId name slug)
    (htoken₁ : ∀ raw, route = .acceptInvitation raw ∨ route = .declineInvitation raw →
      ∀ k i, w₁.invitations.get? k = some i → i.token = hashToken raw → i.organizationId ≠ o)
    (htoken₂ : ∀ raw, route = .acceptInvitation raw ∨ route = .declineInvitation raw →
      ∀ k i, w₂.invitations.get? k = some i → i.token = hashToken raw → i.organizationId ≠ o) :
    Alike (route.serve env caller) w₁ w₂ := by
  have hguard : ∀ orgId roles,
      ReadsSame (fun tenant => tenant.id ≠ o) (tenantWithRole orgId roles caller) w₁ w₂ :=
    fun _ roles => tenantWithRole_outside h.same h₁ h₂ roles
  cases route with
  | createOrganization name slug => exact absurd rfl (hcreate name slug)
  | getOrganization orgId =>
    exact alike_reads_bind (requireTenant_outside h.same h₁ h₂) fun _ hne =>
      getOrganization_alike (h.same.tenant hne)
  | updateOrganization orgId name slug => exact absurd rfl (hupdate orgId name slug)
  | deleteOrganization orgId =>
    exact alike_reads_bind (hguard _ _) fun _ hne => deleteOrganization_alike h hne
  | restoreOrganization orgId =>
    refine alike_reads_bind (requireTenantIncludeDeleted_outside h.same h₁ h₂) fun tenant hne => ?_
    exact alike_reads_bind (requireOrgRole_same _ tenant) fun _ _ =>
      restoreOrganization_alike (h.same.tenant hne) h.constrained₁ h.constrained₂
  | transferOwnership orgId newOwnerId =>
    exact alike_reads_bind (hguard _ _) fun _ hne =>
      transferOwnership_alike (h.same.tenant hne) caller.id newOwnerId
  | updateMemberRole orgId userId role =>
    exact alike_reads_bind (hguard _ _) fun _ hne =>
      updateMemberRole_alike (h.same.tenant hne) h.same.userView userId role
  | removeMember orgId userId =>
    exact alike_reads_bind (hguard _ _) fun _ hne => removeMember_alike (h.same.tenant hne) userId
  | createInvitation orgId email role =>
    exact alike_reads_bind (hguard _ _) fun _ hne =>
      createInvitation_alike h hne caller.id email role
  | cancelInvitation orgId invitationId =>
    exact alike_reads_bind (hguard _ _) fun _ hne => cancelInvitation_alike h.same hne invitationId
  | acceptInvitation raw =>
    exact acceptInvitation_alike h.same (htoken₁ raw (.inl rfl)) (htoken₂ raw (.inl rfl)) caller.id
  | declineInvitation raw =>
    exact declineInvitation_alike h.same (htoken₁ raw (.inr rfl)) (htoken₂ raw (.inr rfl)) caller.id

theorem Unseen.kin {r : OutsideRequest} (h : Unseen o u r w₁ w₂) : Kin o w₁ w₂ :=
  ⟨h.same, h.constrained₁, h.constrained₂⟩

theorem Unseen.authenticate {r : OutsideRequest} (h : Unseen o u r w₁ w₂) :
    ReadsSame (fun caller => Outside o caller.id w₁ ∧ Outside o caller.id w₂)
      (authenticate r.header) w₁ w₂ := by
  refine (authenticate_same h.same.now fun _ _ => by rw [h.same.users]).weaken ?_
  rintro _ _ _ ⟨rfl, rfl, hcaller⟩
  refine ⟨rfl, rfl, fun caller heq => ?_⟩
  have hid : caller.id = u := h.caller caller.id (hcaller caller heq)
  exact ⟨hid ▸ h.outside₁, hid ▸ h.outside₂⟩

theorem Unseen.alike {r : OutsideRequest} (h : Unseen o u r w₁ w₂) (hslug : ¬ r.NamesSlug)
    (hopen : ∀ orgFirst ownerFirst, r.Evaluates o orgFirst ownerFirst →
      w₁.SameRollout o orgFirst ownerFirst w₂) : Alike (r.prog env stripe) w₁ w₂ := by
  have hret : ∀ {α β : Type} (f : α → β) (a : α) (t₁ t₂ : World),
      Alike (.ret (f a) : Req β) t₁ t₂ :=
    fun _ _ _ _ => Prog.Together.ret trivial
  have hmap : ∀ {α β : Type} {p : Req α} (f : α → β), Alike p w₁ w₂ →
      Alike (p.bind fun a => .ret (f a)) w₁ w₂ :=
    fun f hp => hp.bind (fun a t₁ t₂ _ => hret f a t₁ t₂) fun _ _ _ _ => trivial
  cases r with
  | org header route =>
    refine hmap _ (alike_reads_bind h.authenticate fun caller hout =>
      orgRoute_alike h.kin hout.1 hout.2 ?_ ?_ ?_ ?_)
    · rintro name slug rfl
      exact hslug (.inl ⟨header, name, slug, rfl⟩)
    · rintro orgId name slug rfl
      exact hslug (.inr ⟨header, orgId, name, slug, rfl⟩)
    · exact fun raw hroute k i hk htoken ho => h.noToken₁ ⟨header, raw, k, i, by
        rcases hroute with rfl | rfl
        · exact .inl rfl
        · exact .inr rfl, hk, ho, htoken⟩
    · exact fun raw hroute k i hk htoken ho => h.noToken₂ ⟨header, raw, k, i, by
        rcases hroute with rfl | rfl
        · exact .inl rfl
        · exact .inr rfl, hk, ho, htoken⟩
  | listing header route =>
    exact hmap _ (alike_reads_bind h.authenticate fun _ hout =>
      listingRoute_alike h.same hout.1 hout.2 route)
  | billing header orgId route =>
    refine hmap _ (alike_reads_bind h.authenticate fun _ hout => ?_)
    exact alike_reads_bind (requireTenant_outside h.same hout.1 hout.2) fun _ hne =>
      billingRoute_alike h.kin hne route
  | project header orgId route =>
    refine hmap _ (alike_reads_bind h.authenticate fun caller hout => ?_)
    exact alike_reads_bind (requireVerifiedEmail_same (by rw [h.same.users])) fun _ _ =>
      projectRoute_alike h.kin hout.1 hout.2 route
  | evaluate header key orgId orgFirst ownerFirst =>
    refine hmap _ (alike_reads_bind h.authenticate fun caller _ => ?_)
    refine evaluateFlagFor_alike h.same.featureFlags key fun p heq => ?_
    by_cases hne : p = o
    · subst hne heq
      exact hopen orgFirst ownerFirst ⟨header, key, rfl⟩
    · exact .of_other h.kin hne

/-- Nobody who has nothing to do with an organization learns anything of it by the routes for
organizations, invitations and flags. The answers to one request, in two databases that differ
in nothing but the organization's rows, are the same; but a slug that is taken is said to be,
and a flag is evaluated for whichever organization is named, by its overrides and its plan. -/
theorem outsider_learns_nothing (env : Env) (stripe : StripeApi) {r : OutsideRequest}
    (h : Unseen o u r w₁ w₂) (hopen : ∀ orgFirst ownerFirst, r.Evaluates o orgFirst ownerFirst →
      w₁.SameRollout o orgFirst ownerFirst w₂) :
    ((r.prog env stripe).runs w₁).1 = ((r.prog env stripe).runs w₂).1 ∨
      r.NamesSlug ∧ (((r.prog env stripe).runs w₁).1 = .error slugAlreadyTaken ∨
        ((r.prog env stripe).runs w₂).1 = .error slugAlreadyTaken) := by
  by_cases hslug : r.NamesSlug
  · have hbut : AlikeButSlug (r.prog env stripe) w₁ w₂ := by
      rcases hslug with ⟨header, name, slug, rfl⟩ | ⟨header, orgId, name, slug, rfl⟩
      · exact (AlikeButSlug.reads_bind h.authenticate fun caller _ =>
          createOrganization_alike h.same caller.id name slug).map
      · refine (AlikeButSlug.reads_bind h.authenticate fun caller hout => ?_).map
        exact .reads_bind (tenantWithRole_outside h.same hout.1 hout.2 _) fun _ hne =>
          updateOrganization_alike h.same hne name slug
    exact hbut.imp_right fun h => ⟨hslug, h⟩
  · exact .inl (h.alike hslug hopen).1

end Routes

section Sample

def strangeWorld (overrides : Table OrganizationFeatureFlag) : World where
  users := ((∅ : Table User).insert 1 { email := "a@x.io" }).insert 2 { email := "b@x.io" }
  organizations :=
    (∅ : Table Organization).insert 3 { name := "Acme", slug := "acme", ownerId := 1 }
  members := (∅ : Table OrganizationMember).insert 4 ⟨3, 1, .owner, 0⟩
  featureFlags := (∅ : Table FeatureFlag).insert 5
    { key := "beta", name := "Beta", type := .boolean, value := .obj [("enabled", .bool false)] }
  featureFlagOverrides := overrides
  nonce := 7

def betaOverride : Table OrganizationFeatureFlag :=
  (∅ : Table OrganizationFeatureFlag).insert 6
    { featureFlagId := 5, organizationId := 3, enabled := true,
      value := .obj [("enabled", .bool true)] }

def sampleStripe : StripeApi where
  retrieveCustomer _ := .resourceMissing
  createCustomer _ := .ok 0
  createCheckout _ := .ok ("", "")
  createPortal _ _ := .ok ""

theorem strangeWorld_constrained (overrides : Table OrganizationFeatureFlag) :
    (strangeWorld overrides).Constrained := by
  refine ⟨fun k k' org org' hk hk' _ => ?_, fun k s hk => (by cases hk),
    fun k i hk => (by cases hk)⟩
  have honly : ∀ {k org}, (strangeWorld overrides).organizations.get? k = some org → k = 3 := by
    intro k org hk
    rcases Table.get?_insert_cases hk with h | ⟨rfl, _⟩
    · cases h
    · rfl
  exact (honly hk).trans (honly hk').symm

theorem strangeWorld_outside (overrides : Table OrganizationFeatureFlag) :
    Outside 3 2 (strangeWorld overrides) := by
  refine ⟨fun k m hk _ => ?_, fun k i x hk => (by cases hk)⟩
  rcases Table.get?_insert_cases hk with h | ⟨_, rfl⟩
  · cases h
  · decide

theorem strangeWorld_unseen {r : OutsideRequest}
    (hr : r.header = .bearer ⟨2, "b@x.io", .user, 0, 100⟩) :
    Unseen 3 2 r (strangeWorld betaOverride) (strangeWorld ∅) where
  same := ⟨rfl, rfl, rfl, rfl, rfl, rfl, rfl⟩
  constrained₁ := strangeWorld_constrained _
  constrained₂ := strangeWorld_constrained _
  outside₁ := strangeWorld_outside _
  outside₂ := strangeWorld_outside _
  caller := fun u' h => by rw [hr] at h; exact (Option.some.inj h).symm
  noToken₁ := fun ⟨_, _, _, _, _, hk, _⟩ => by cases hk
  noToken₂ := fun ⟨_, _, _, _, _, hk, _⟩ => by cases hk

def strangerAsks : OutsideRequest :=
  .org (.bearer ⟨2, "b@x.io", .user, 0, 100⟩) (.getOrganization 3)

def strangerEvaluates : OutsideRequest :=
  .evaluate (.bearer ⟨2, "b@x.io", .user, 0, 100⟩) "beta" (some 3) .tableOrder .tableOrder

def strangerSees (r : OutsideRequest) (overrides : Table OrganizationFeatureFlag) :
    Except Err OutsideReply :=
  ((r.prog sampleEnv sampleStripe).runs (strangeWorld overrides)).1

theorem outsider_learns_nothing_refused :
    strangerSees strangerAsks betaOverride = .error (httpError "errors.noOrgAccess" 403) ∧
      (strangerSees strangerAsks betaOverride = strangerSees strangerAsks ∅ ∨
        strangerAsks.NamesSlug ∧ (strangerSees strangerAsks betaOverride = .error slugAlreadyTaken ∨
          strangerSees strangerAsks ∅ = .error slugAlreadyTaken)) :=
  ⟨rfl, outsider_learns_nothing sampleEnv sampleStripe (strangeWorld_unseen rfl)
    fun _ _ ⟨_, _, h⟩ => by cases h⟩

/-- Whoever has a session sees whether organization 3 has the flag. -/
theorem stranger_sees_override :
    Unseen 3 2 strangerEvaluates (strangeWorld betaOverride) (strangeWorld ∅) ∧
      strangerSees strangerEvaluates betaOverride =
        .ok (.evaluate (.result ⟨"beta", true, .override⟩)) ∧
      strangerSees strangerEvaluates ∅ = .ok (.evaluate (.result ⟨"beta", false, .default⟩)) ∧
      strangerSees strangerEvaluates betaOverride ≠ strangerSees strangerEvaluates ∅ := by
  have hwith : strangerSees strangerEvaluates betaOverride =
    .ok (.evaluate (.result ⟨"beta", true, .override⟩)) := rfl
  have hwithout : strangerSees strangerEvaluates ∅ =
    .ok (.evaluate (.result ⟨"beta", false, .default⟩)) := rfl
  refine ⟨strangeWorld_unseen rfl, hwith, hwithout, fun heq => ?_⟩
  rw [hwith, hwithout] at heq
  cases heq

end Sample

end SaasBackend
