import SaasBackend.HandlerPairs
import SaasBackend.PlanEntitlement
import SaasBackend.Tenancy

/-! The project routes of one organization, in two databases that agree on what is the
caller's and what is the organization's. Every lookup of project.service.js is scoped to
the organization; the writes go by project id alone, after such a lookup. -/

set_option autoImplicit false

namespace SaasBackend
open Keyed Handler

inductive ProjectRequest where
  | jwt (header : AuthHeader) (route : ProjectRoute)
  | apiKey (header : ApiKeyHeader) (route : ApiKeyRoute)

def ProjectRequest.prog (env : Env) (o : Id) : ProjectRequest → Req ProjectReply
  | .jwt header route => route.handle env header o
  | .apiKey header route => route.handle env header o

/-- The organization's own rows agree, with the creators of its projects as they are shown,
and so do the feature flags, the clock and the supply of ids. -/
structure World.SameTenant (o : Id) (w₁ w₂ : World) : Prop where
  now : w₁.now = w₂.now
  nonce : w₁.nonce = w₂.nonce
  organization : w₁.organizations.get? o = w₂.organizations.get? o
  members : w₁.members.filter (fun _ m => m.organizationId == o) =
    w₂.members.filter (fun _ m => m.organizationId == o)
  projects : w₁.projects.filter (fun _ p => p.organizationId == o) =
    w₂.projects.filter (fun _ p => p.organizationId == o)
  creators : ∀ k p, w₁.projects.get? k = some p → p.organizationId = o →
    w₁.userView p.createdById = w₂.userView p.createdById
  featureFlagOverrides : w₁.featureFlagOverrides.filter (fun _ f => f.organizationId == o) =
    w₂.featureFlagOverrides.filter (fun _ f => f.organizationId == o)
  subscriptions : w₁.subscriptions.filter (fun _ s => s.organizationId == some o) =
    w₂.subscriptions.filter (fun _ s => s.organizationId == some o)
  featureFlags : w₁.featureFlags = w₂.featureFlags

structure World.SameCaller (u : Id) (w₁ w₂ : World) : Prop where
  user : w₁.users.get? u = w₂.users.get? u
  subscriptions : w₁.subscriptions.filter (fun _ s => s.userId == some u) =
    w₂.subscriptions.filter (fun _ s => s.userId == some u)

def ProjectRequest.CalledBy (r : ProjectRequest) (w : World) (u : Id) : Prop :=
  match r with
  | .jwt header _ => header.bearerId = some u
  | .apiKey header _ => ∃ rawKey k row, header = .key rawKey ∧ w.apiKeys.get? k = some row ∧
      row.keyHash = hashToken rawKey ∧ row.userId = u

structure ProjectRequest.Agrees (r : ProjectRequest) (o : Id) (w₁ w₂ : World) : Prop where
  tenant : w₁.SameTenant o w₂
  caller : ∀ u, r.CalledBy w₁ u → w₁.SameCaller u w₂
  apiKeys : ∀ rawKey route, r = .apiKey (.key rawKey) route →
    w₁.apiKeys.filter (fun _ k => k.keyHash == hashToken rawKey) =
      w₂.apiKeys.filter (fun _ k => k.keyHash == hashToken rawKey)

def ProjectRequest.SamePlans (r : ProjectRequest) (o : Id) (w₁ w₂ : World) : Prop :=
  ∀ k s, w₁.subscriptions.get? k = some s →
    (s.organizationId = some o ∨ ∃ u, r.CalledBy w₁ u ∧ s.userId = some u) →
      w₁.plans.get? s.planId = w₂.plans.get? s.planId

structure World.WritesWithin (o : Id) (w w' : World) : Prop where
  rest : ∃ projects apiKeys nonce, w' = { w with projects, apiKeys, nonce }
  projects : ∀ k p, p.organizationId ≠ o →
    (w'.projects.get? k = some p ↔ w.projects.get? k = some p)

theorem World.WritesWithin.refl (o : Id) (w : World) : w.WritesWithin o w :=
  ⟨⟨w.projects, w.apiKeys, w.nonce, rfl⟩, fun _ _ _ => Iff.rfl⟩

theorem World.WritesWithin.trans {o : Id} {w₁ w₂ w₃ : World} (h₁ : w₁.WritesWithin o w₂)
    (h₂ : w₂.WritesWithin o w₃) :
    w₁.WritesWithin o w₃ := by
  obtain ⟨⟨_, _, _, rfl⟩, hprojects₁⟩ := h₁
  obtain ⟨⟨projects, apiKeys, nonce, rfl⟩, hprojects₂⟩ := h₂
  exact ⟨⟨projects, apiKeys, nonce, rfl⟩,
    fun k p hp => (hprojects₂ k p hp).trans (hprojects₁ k p hp)⟩

section Guards

variable {env : Env} {o : Id} {w₁ w₂ : World} {α β : Type}

abbrev Together (post : Except Err α → World → World → Prop) (p : Req α) (w₁ w₂ : World) : Prop :=
  p.Together Stmt.exec post w₁ w₂

abbrev ReadsSame (Q : α → Prop) (p : Req α) (w₁ w₂ : World) : Prop := p.ReadsSame Stmt.exec Q w₁ w₂

theorem readsSame_query {Q : α → Prop} {view : World → α} (hview : view w₁ = view w₂)
    (hQ : Q (view w₁)) :
    ReadsSame Q (query view) w₁ w₂ := .send (fun _ => rfl) hview hQ

theorem readsSame_query_bind {R : β → Prop} {view : World → α} {k : α → Req β}
    (hview : view w₁ = view w₂) (hk : ReadsSame R (k (view w₁)) w₁ w₂) :
    ReadsSame R ((query view).bind k) w₁ w₂ :=
  (readsSame_query (Q := fun a => a = view w₁) hview rfl).bind fun _ ha => ha ▸ hk

theorem together_query_bind {post : Except Err β → World → World → Prop} {view : World → α}
    {k : α → Req β} (hview : view w₁ = view w₂) (hk : Together post (k (view w₁)) w₁ w₂) :
    Together post ((query view).bind k) w₁ w₂ :=
      Prog.Together.send_bind hview (.inr ⟨w₁, w₂, rfl, rfl, hk⟩)

theorem authenticate_same {header : AuthHeader} (hnow : w₁.now = w₂.now)
    (huser : ∀ u, header.bearerId = some u → w₁.users.get? u = w₂.users.get? u) :
    ReadsSame (fun caller => header.bearerId = some caller.id) (authenticate header) w₁ w₂ := by
  unfold authenticate
  split
  · exact .throw
  · exact .throw
  · rename_i token
    refine readsSame_query_bind hnow ?_
    split
    · exact .throw
    · refine readsSame_query_bind (by rw [huser token.id rfl]) ?_
      split
      · exact .throw
      · split
        · exact .throw
        · split
          · exact .throw
          · refine readsSame_query_bind hnow ?_
            split
            · exact .throw
            · exact .ret rfl

theorem requireVerifiedEmail_same {caller : Caller}
    (huser : w₁.users.get? caller.id = w₂.users.get? caller.id) :
    ReadsSame (fun _ => True) (requireVerifiedEmail caller) w₁ w₂ := by
  unfold requireVerifiedEmail
  split
  · split
    · exact .ret trivial
    · exact .throw
  · refine readsSame_query_bind (by rw [huser]) ?_
    split
    · exact .ret trivial
    · exact .throw

theorem membership_same (h : w₁.SameTenant o w₂) (u : Id) :
    w₁.membership o u = w₂.membership o u := by
  refine Table.find?_congr (q := fun _ m => m.organizationId == o) (fun _ m hm => ?_) h.members
  simp only [Bool.and_eq_true] at hm
  exact hm.1

theorem requireTenant_same (h : w₁.SameTenant o w₂) (caller : Caller) :
    ReadsSame (fun tenant => tenant.id = o ∧ (w₁.membership o caller.id).isSome = true)
      (requireTenant o caller)
      w₁ w₂ := by
  refine readsSame_query_bind ?_ ?_
  · rw [World.tenant, World.tenant, membership_same h, h.organization]
  · split
    · rename_i tenant hfound
      refine .ret ?_
      simp only [World.tenant] at hfound
      obtain ⟨r, hr, hjoin⟩ := Option.bind_eq_some_iff.mp hfound
      obtain ⟨org, _, heq⟩ := Option.map_eq_some_iff.mp hjoin
      obtain ⟨rfl, _⟩ := Prod.mk.inj heq
      exact ⟨rfl, by rw [hr]; rfl⟩
    · exact .throw

theorem requireOrgRole_same (roles : List OrgRole) (tenant : Tenant) :
    ReadsSame (fun _ => True) (requireOrgRole roles tenant) w₁ w₂ := by
  unfold requireOrgRole
  split
  · exact .ret trivial
  · exact .throw

theorem requirePlan_same (planCodes : List String) (subscription : ActiveSubscription) :
    ReadsSame (fun _ => True) (requirePlan planCodes subscription) w₁ w₂ := by
  unfold requirePlan
  split
  · exact .ret trivial
  · exact .throw

theorem activeSubscription_same {first : NewestFirst} {owned : Subscription → Bool}
    (howned : w₁.subscriptions.filter (fun _ s => owned s) = w₂.subscriptions.filter
      (fun _ s => owned s))
    (hplans : ∀ k s, w₁.subscriptions.get? k = some s → owned s = true →
      w₁.plans.get? s.planId = w₂.plans.get? s.planId) :
    w₁.activeSubscription first owned = w₂.activeSubscription first owned := by
  have hlive : w₁.subscriptions.filter
    (fun _ s => owned s && [.active, .trialing].contains s.status) =
      w₂.subscriptions.filter (fun _ s => owned s && [.active, .trialing].contains s.status) := by
    refine Table.filter_congr (q := fun _ s => owned s) (fun _ s hs => ?_) howned
    simp only [Bool.and_eq_true] at hs
    exact hs.1
  rw [World.activeSubscription, World.activeSubscription, ← hlive]
  cases hpick : first.pick
    (w₁.subscriptions.filter (fun _ s => owned s && [.active, .trialing].contains s.status)) with
  | none => rfl
  | some found =>
    obtain ⟨hk, hs⟩ := Table.mem_filter.mp (first.mem hpick)
    simp only [Bool.and_eq_true] at hs
    rw [Option.bind_some, Option.bind_some, hplans _ _ hk hs.1]

theorem subscriptionGate_same {first : NewestFirst} {owned : Subscription → Bool}
    (howned : w₁.subscriptions.filter (fun _ s => owned s) = w₂.subscriptions.filter
      (fun _ s => owned s))
    (hplans : ∀ k s, w₁.subscriptions.get? k = some s → owned s = true →
      w₁.plans.get? s.planId = w₂.plans.get? s.planId) :
    ReadsSame (fun _ => True) (subscriptionGate first owned) w₁ w₂ := by
  refine readsSame_query_bind (activeSubscription_same howned hplans) ?_
  split
  · exact .ret trivial
  · exact .throw

theorem orThrow_same (e : Except Err α) : ReadsSame (fun _ => True) (orThrow e) w₁ w₂ := by
  cases e
  · exact .throw
  · exact .ret trivial

theorem evaluateFlag_same (hflags : w₁.featureFlags = w₂.featureFlags)
    (hoverrides : w₁.featureFlagOverrides.filter (fun _ f => f.organizationId == o) =
      w₂.featureFlagOverrides.filter (fun _ f => f.organizationId == o)) (key : String) (planCode :
      Option String) :
    ReadsSame (fun _ => True) (evaluateFlag env key (some o) planCode) w₁ w₂ := by
  refine readsSame_query_bind (by rw [hflags]) ?_
  split
  · exact .ret trivial
  · rename_i flagId flag _
    split
    · exact .ret trivial
    · refine readsSame_query_bind ?_ ?_
      · refine Table.find?_congr (q := fun _ f => f.organizationId == o) (fun _ f hf => ?_)
          hoverrides
        simp only [Bool.and_eq_true] at hf
        exact hf.2
      · simp only []
        split
        · exact (orThrow_same _).bind fun _ _ => .ret trivial
        · exact (orThrow_same _).bind fun _ _ => .ret trivial

theorem requireFeatureFlag_same (h : w₁.SameTenant o w₂) {tenant : Tenant} (htenant : tenant.id = o)
    (key : String) (subscription : Option ActiveSubscription) :
    ReadsSame (fun _ => True) (requireFeatureFlag env key tenant subscription) w₁ w₂ := by
  subst htenant
  refine (evaluateFlag_same h.featureFlags h.featureFlagOverrides key _).bind fun result _ => ?_
  split
  · exact .ret trivial
  · exact .throw

end Guards

section Services

variable {env : Env} {o : Id} {w₁ w₂ : World} {α β : Type}

theorem readsSame_within {p : Req α} (h : ReadsSame (fun _ => True) p w₁ w₂) :
    Together (fun _ t₁ _ => w₁.WritesWithin o t₁) p w₁ w₂ := by
  refine h.weaken ?_
  rintro _ _ _ ⟨rfl, _, _⟩
  exact .refl o _

theorem project_same (h : w₁.SameTenant o w₂) {k : Id} {p : Project} (hp : p.organizationId = o) :
    w₁.projects.get? k = some p ↔ w₂.projects.get? k = some p :=
      Table.get?_congr h.projects (by simpa using hp)

theorem projectView_same (h : w₁.SameTenant o w₂) {k : Id} {p p' : Project}
    (hk : w₁.projects.get? k = some p) (hp : p.organizationId = o)
    (hcreator : p'.createdById = p.createdById) :
    w₁.projectView k p' = w₂.projectView k p' := by
  rw [World.projectView, World.projectView, hcreator, h.creators k p hk hp]

theorem liveProjects_same (h : w₁.SameTenant o w₂) : w₁.liveProjects o = w₂.liveProjects o := by
  refine Table.filter_congr (q := fun _ p => p.organizationId == o) (fun _ p hp => ?_) h.projects
  simp only [Bool.and_eq_true] at hp
  exact hp.1

theorem projectViews_same (h : w₁.SameTenant o w₂) {rows : List (Id × Project)}
    (hrows : rows ⊆ w₁.liveProjects o) :
    rows.map (fun r => w₁.projectView r.1 r.2) = rows.map (fun r => w₂.projectView r.1 r.2) := by
  refine List.map_congr_left fun r hr => ?_
  obtain ⟨hk, hp⟩ := Table.mem_filter.mp (hrows hr)
  simp only [Bool.and_eq_true, beq_iff_eq] at hp
  exact projectView_same h hk hp.1 rfl

theorem listProjects_same (h : w₁.SameTenant o w₂) (q : ListQuery) :
    ReadsSame (fun _ => True) (listProjects env o q) w₁ w₂ := by
  refine readsSame_query_bind ?_ (readsSame_query_bind ?_ (.ret trivial))
  · rw [← liveProjects_same h]
    refine projectViews_same h fun r hr => ?_
    have hfiltered := List.mem_mergeSort.mp (List.mem_of_mem_drop (List.mem_of_mem_take hr))
    exact (List.mem_filter.mp hfiltered).1
  · rw [liveProjects_same h]

theorem exportProjects_same (h : w₁.SameTenant o w₂) :
    ReadsSame (fun _ => True) (exportProjects env o) w₁ w₂ := by
  refine readsSame_query_bind ?_ (readsSame_query_bind h.now (.ret trivial))
  rw [← liveProjects_same h]
  exact projectViews_same h fun r hr => List.mem_mergeSort.mp hr

theorem getProjectAnalytics_same (h : w₁.SameTenant o w₂) :
    ReadsSame (fun _ => True) (getProjectAnalytics o) w₁ w₂ := by
  refine readsSame_query_bind ?_ (readsSame_query_bind ?_ (.ret trivial)) <;>
    rw [liveProjects_same h]

theorem findLive_same (h : w₁.SameTenant o w₂) (projectId : Id) :
    ReadsSame (fun _ => ∃ p, w₁.projects.get? projectId = some p ∧ p.organizationId = o)
      (findLive o projectId)
      w₁ w₂ := by
  have hfound : (w₁.projects.get? projectId).filter (fun p => p.organizationId == o &&
    p.deletedAt.isNone) =
      (w₂.projects.get? projectId).filter (fun p => p.organizationId == o &&
        p.deletedAt.isNone) := by
    refine Option.ext fun p => ?_
    simp only [Option.filter_eq_some_iff, Bool.and_eq_true, beq_iff_eq]
    exact and_congr_left fun hp => project_same h hp.1
  refine readsSame_query_bind ?_ ?_
  · rw [← hfound]
    cases hp : (w₁.projects.get? projectId).filter (fun p => p.organizationId == o &&
      p.deletedAt.isNone) with
    | none => rfl
    | some p =>
      simp only [Option.filter_eq_some_iff, Bool.and_eq_true, beq_iff_eq] at hp
      rw [Option.map_some, Option.map_some, projectView_same h hp.1 hp.2.1 rfl]
  · split
    · exact .throw
    · rename_i view hview
      obtain ⟨p, hp, _⟩ := Option.map_eq_some_iff.mp hview
      simp only [Option.filter_eq_some_iff, Bool.and_eq_true, beq_iff_eq] at hp
      exact .ret ⟨p, hp.1, hp.2.1⟩

theorem projectCreate_both (h : w₁.SameTenant o w₂) (row : Project) (ho : row.organizationId = o)
    (huser : w₁.users.get? row.createdById = w₂.users.get? row.createdById) :
    (∃ e, (Stmt.projectCreate row).exec w₁ = .error e ∧
      (Stmt.projectCreate row).exec w₂ = .error e) ∨
      ∃ t₁ t₂, (Stmt.projectCreate row).exec w₁ = .ok t₁ ∧ (Stmt.projectCreate row).exec w₂ =
        .ok t₂ ∧
        w₁.WritesWithin o t₁ := by
  subst ho
  by_cases hparents : (!w₁.hasOrganization row.organizationId || !w₁.hasUser row.createdById) = true
  · refine .inl ⟨.prisma .P2003, if_pos hparents, if_pos ?_⟩
    rw [World.hasOrganization, World.hasUser, h.organization, huser] at hparents
    exact hparents
  · refine .inr ⟨_, _, if_neg hparents, if_neg ?_, ⟨_, _, _, rfl⟩,
      fun k p hp => ⟨fun hk => ?_, Table.get?_insert_of_some⟩⟩
    · rw [World.hasOrganization, World.hasUser, h.organization, huser] at hparents
      exact hparents
    · rcases Table.get?_insert_cases hk with hold | ⟨_, rfl⟩
      · exact hold
      · exact absurd rfl hp

theorem createProject_together (h : w₁.SameTenant o w₂) {userId : Id}
    (huser : w₁.users.get? userId = w₂.users.get? userId) (name : String)
    (description : Option String) :
    Together (fun _ t₁ _ => w₁.WritesWithin o t₁) (createProject o userId name description)
      w₁ w₂ := by
  refine Prog.Together.send_bind ?_ ?_
  · simp only [World.projectView, World.userView, h.now, h.nonce, huser]
  · let row : Project :=
      { organizationId := o, createdById := userId, name := trim name,
        description := description.map trim }
    rcases projectCreate_both h row rfl huser with ⟨e, h₁, h₂⟩ | ⟨t₁, t₂, h₁, h₂, hwithin⟩
    · exact .inl ⟨e, h₁, h₂, .refl o w₁⟩
    · exact .inr ⟨t₁, t₂, h₁, h₂, Prog.Together.ret hwithin⟩

theorem projectUpdate_both (h : w₁.SameTenant o w₂) {projectId : Id} {p : Project}
    (data : ProjectPatch) (hp : w₁.projects.get? projectId = some p) (ho : p.organizationId = o) :
    ∃ t₁ t₂, (Stmt.projectUpdate projectId data).exec w₁ = .ok t₁ ∧
      (Stmt.projectUpdate projectId data).exec w₂ = .ok t₂ ∧
      w₁.WritesWithin o t₁ := by
  have hp₂ := (project_same h ho).mp hp
  refine ⟨_, _, if_pos (by rw [hp]; rfl), if_pos (by rw [hp₂]; rfl), ⟨_, _, _, rfl⟩,
    fun k p' hp' => ?_⟩
  by_cases hk : k = projectId
  · subst hk
    have hnot : w₁.projects.get? k ≠ some p' :=
      fun heq => hp' (Option.some.inj (hp.symm.trans heq) ▸ ho)
    refine ⟨fun hnew => ?_, fun hold => absurd hold hnot⟩
    simp only [Table.get?_update, hp, Option.map_some, if_pos] at hnew
    cases hnew
    exact absurd ho hp'
  · simp [hk]

theorem updateProject_together (h : w₁.SameTenant o w₂) (projectId : Id)
    (body : UpdateProjectBody) :
    Together (fun _ t₁ _ => w₁.WritesWithin o t₁) (updateProject o projectId body) w₁ w₂ := by
  refine (findLive_same h projectId).together_bind (fun _ => .refl o w₁) fun _ hfound => ?_
  obtain ⟨p, hp, ho⟩ := hfound
  obtain ⟨t₁, t₂, h₁, h₂, hwithin⟩ := projectUpdate_both h
    { name := body.name.map trim, description := body.description.map (·.map trim),
      status := body.status } hp ho
  refine Prog.Together.send_bind ?_ (.inr ⟨t₁, t₂, h₁, h₂, ?_⟩)
  · simp only [World.savedProject, hp, (project_same h ho).mp hp, Option.map_some, ← h.now]
    exact congrArg some (projectView_same h hp ho rfl)
  · split
    · exact Prog.Together.throw hwithin
    · exact Prog.Together.ret hwithin

theorem deleteProject_together (h : w₁.SameTenant o w₂) (projectId : Id) :
    Together (fun _ t₁ _ => w₁.WritesWithin o t₁) (deleteProject o projectId) w₁ w₂ := by
  refine (findLive_same h projectId).together_bind (fun _ => .refl o w₁) fun _ hfound => ?_
  obtain ⟨p, hp, ho⟩ := hfound
  refine Prog.ReadsSame.together_bind (Q := fun now => now = w₁.now) (readsSame_query h.now rfl)
    (fun _ => .refl o w₁)
    fun now _ => ?_
  obtain ⟨t₁, t₂, h₁, h₂, hwithin⟩ := projectUpdate_both h { deletedAt := some (some now) } hp ho
  exact Prog.Together.send_bind rfl (.inr ⟨t₁, t₂, h₁, h₂, Prog.Together.ret hwithin⟩)

end Services

section Routes

variable {env : Env} {o : Id} {w₁ w₂ : World}

theorem projectRoute_serve (h : w₁.SameTenant o w₂) {caller : Caller} {tenant : Tenant}
    (hcaller : w₁.SameCaller caller.id w₂) (hplans : ∀ k s, w₁.subscriptions.get? k = some s →
      (s.organizationId = some o ∨ s.userId = some caller.id) →
      w₁.plans.get? s.planId = w₂.plans.get? s.planId)
    (htenant : tenant.id = o) (route : ProjectRoute) :
    Together (fun _ t₁ _ => w₁.WritesWithin o t₁) (route.serve env caller tenant) w₁ w₂ := by
  subst htenant
  cases route with
  | listProjects q => exact readsSame_within (listProjects_same h q)
  | exportProjects first =>
    have hplan : ∀ k s, w₁.subscriptions.get? k = some s → (s.userId == some caller.id) = true →
        w₁.plans.get? s.planId = w₂.plans.get? s.planId :=
          fun k s hk hs => hplans k s hk (.inr (by simpa using hs))
    refine readsSame_within ((subscriptionGate_same hcaller.subscriptions hplan).bind
      fun subscription _ =>
      (requirePlan_same _ _).bind fun _ _ => ?_)
    exact (requireFeatureFlag_same h rfl _ _).bind fun _ _ => exportProjects_same h
  | projectAnalytics first =>
    have hplan : ∀ k s, w₁.subscriptions.get? k = some s →
      (s.organizationId == some tenant.id) = true →
        w₁.plans.get? s.planId = w₂.plans.get? s.planId :=
          fun k s hk hs => hplans k s hk (.inl (by simpa using hs))
    exact readsSame_within ((subscriptionGate_same h.subscriptions hplan).bind fun subscription _ =>
      (requirePlan_same _ _).bind fun _ _ => getProjectAnalytics_same h)
  | getProject projectId =>
    exact readsSame_within ((findLive_same h projectId).bind fun _ _ => .ret trivial)
  | createProject name description =>
    exact (requireOrgRole_same _ tenant).together_bind (fun _ => .refl _ w₁) fun _ _ =>
      createProject_together h hcaller.user name description
  | updateProject projectId body =>
    exact (requireOrgRole_same _ tenant).together_bind (fun _ => .refl _ w₁) fun _ _ =>
      updateProject_together h projectId body
  | deleteProject projectId =>
    exact (requireOrgRole_same _ tenant).together_bind (fun _ => .refl _ w₁) fun _ _ =>
      deleteProject_together h projectId

theorem apiKeyRoute_serve (h : w₁.SameTenant o w₂) {tenant : Tenant} (htenant : tenant.id = o)
    (route : ApiKeyRoute) :
    Together (fun _ t₁ _ => w₁.WritesWithin o t₁) (route.serve env tenant) w₁ w₂ := by
  subst htenant
  cases route with
  | listProjects q => exact readsSame_within (listProjects_same h q)
  | getProject projectId =>
    exact readsSame_within ((findLive_same h projectId).bind fun _ _ => .ret trivial)

def TouchedKeys (w t : World) : Prop := ∃ apiKeys, t = { w with apiKeys }

theorem touchApiKey_together (hnow : w₁.now = w₂.now) (id : Id) (lastUsedAt : Option Time) :
    Together (fun r t₁ t₂ => r = .ok () ∧ TouchedKeys w₁ t₁ ∧ TouchedKeys w₂ t₂)
      (touchApiKey id lastUsedAt) w₁ w₂ := by
  refine together_query_bind hnow ?_
  unfold when
  split
  · exact ⟨rfl, rfl, ⟨_, rfl⟩, ⟨_, by rw [hnow]; rfl⟩⟩
  · exact Prog.Together.ret ⟨rfl, ⟨w₁.apiKeys, rfl⟩, ⟨w₂.apiKeys, rfl⟩⟩

theorem keyHolder_same {rawKey : Nat} {route : ApiKeyRoute}
    (h : (ProjectRequest.apiKey (.key rawKey) route).Agrees o w₁ w₂) :
    w₁.keyHolder rawKey = w₂.keyHolder rawKey ∧ ∀ id apiKey user,
      w₁.keyHolder rawKey = some (id, apiKey, user) →
      (ProjectRequest.apiKey (.key rawKey) route).CalledBy w₁ apiKey.userId := by
  have hkey : w₁.apiKeys.find? (fun _ k => k.keyHash == hashToken rawKey && k.deletedAt.isNone) =
      w₂.apiKeys.find? (fun _ k => k.keyHash == hashToken rawKey && k.deletedAt.isNone) := by
    refine Table.find?_congr (q := fun _ k => k.keyHash == hashToken rawKey) (fun _ k hk => ?_)
      (h.apiKeys rawKey route rfl)
    simp only [Bool.and_eq_true] at hk
    exact hk.1
  have hcalled : ∀ k row,
    w₁.apiKeys.find? (fun _ k => k.keyHash == hashToken rawKey && k.deletedAt.isNone) =
      some (k, row) → (ProjectRequest.apiKey (.key rawKey) route).CalledBy w₁ row.userId := by
    intro k row hfound
    obtain ⟨hk, hmatch⟩ := Table.find?_some hfound
    simp only [Bool.and_eq_true, beq_iff_eq] at hmatch
    exact ⟨rawKey, k, row, rfl, hk, hmatch.1, rfl⟩
  constructor
  · rw [World.keyHolder, World.keyHolder, ← hkey]
    cases hfound : w₁.apiKeys.find? (fun _ k => k.keyHash == hashToken rawKey &&
      k.deletedAt.isNone) with
    | none => rfl
    | some found => simp only [Option.bind_some, (h.caller _ (hcalled _ _ hfound)).user]
  · intro id apiKey user hholder
    obtain ⟨⟨k, row⟩, hrow, hjoin⟩ := Option.bind_eq_some_iff.mp hholder
    obtain ⟨u, _, heq⟩ := Option.map_eq_some_iff.mp hjoin
    cases heq
    exact hcalled _ _ hrow

theorem verifyApiKey_together {rawKey : Nat} {route : ApiKeyRoute}
    (h : (ProjectRequest.apiKey (.key rawKey) route).Agrees o w₁ w₂) :
    Together (fun res t₁ t₂ => TouchedKeys w₁ t₁ ∧ TouchedKeys w₂ t₂ ∧
      ∀ a, res = .ok (some a) → (ProjectRequest.apiKey (.key rawKey) route).CalledBy w₁ a.2.id)
      (verifyApiKey rawKey) w₁ w₂ := by
  have hnone : TouchedKeys w₁ w₁ ∧ TouchedKeys w₂ w₂ ∧
      ∀ a : KeyContext × Caller, (.ok none : Except Err (Option (KeyContext × Caller))) =
        .ok (some a) →
        (ProjectRequest.apiKey (.key rawKey) route).CalledBy w₁ a.2.id :=
    ⟨⟨w₁.apiKeys, rfl⟩, ⟨w₂.apiKeys, rfl⟩, fun _ heq => (by cases heq)⟩
  obtain ⟨hholder, hcalled⟩ := keyHolder_same h
  refine together_query_bind hholder ?_
  split
  · exact Prog.Together.ret hnone
  · rename_i id apiKey user hfound
    split
    · exact Prog.Together.ret hnone
    · refine together_query_bind h.tenant.now ?_
      split
      · exact Prog.Together.ret hnone
      · split
        · exact Prog.Together.ret hnone
        · refine together_query_bind h.tenant.now ?_
          split
          · exact Prog.Together.ret hnone
          · refine Prog.Together.bind (touchApiKey_together h.tenant.now id apiKey.lastUsedAt) ?_ ?_
            · rintro _ t₁ t₂ ⟨_, htouched₁, htouched₂⟩
              refine Prog.Together.ret ⟨htouched₁, htouched₂, fun a heq => ?_⟩
              cases heq
              exact hcalled _ _ _ hfound
            · rintro e _ _ ⟨heq, _⟩
              cases heq

theorem authenticateApiKey_together {header : ApiKeyHeader} {route : ApiKeyRoute}
    (h : (ProjectRequest.apiKey header route).Agrees o w₁ w₂) :
    Together (fun res t₁ t₂ => TouchedKeys w₁ t₁ ∧ TouchedKeys w₂ t₂ ∧
      ∀ a, res = .ok a → (ProjectRequest.apiKey header route).CalledBy w₁ a.2.id)
      (authenticateApiKey header) w₁ w₂ := by
  unfold authenticateApiKey
  split
  · exact Prog.Together.throw ⟨⟨w₁.apiKeys, rfl⟩, ⟨w₂.apiKeys, rfl⟩, fun _ heq => (by cases heq)⟩
  · exact Prog.Together.throw ⟨⟨w₁.apiKeys, rfl⟩, ⟨w₂.apiKeys, rfl⟩, fun _ heq => (by cases heq)⟩
  · refine Prog.Together.bind (verifyApiKey_together h) ?_ ?_
    · rintro (_ | a) t₁ t₂ ⟨htouched₁, htouched₂, ha⟩
      · exact Prog.Together.throw ⟨htouched₁, htouched₂, fun _ heq => (by cases heq)⟩
      · refine Prog.Together.ret ⟨htouched₁, htouched₂, fun b heq => ?_⟩
        cases heq
        exact ha a rfl
    · rintro e t₁ t₂ ⟨htouched₁, htouched₂, _⟩
      exact ⟨htouched₁, htouched₂, fun _ heq => (by cases heq)⟩

theorem requireScope_same (scopes : List String) (apiKey : KeyContext) :
    ReadsSame (fun _ => True) (requireScope scopes apiKey) w₁ w₂ := by
  unfold requireScope
  split
  · exact .ret trivial
  · exact .throw

theorem World.SameTenant.touched {t₁ t₂ : World} (h : w₁.SameTenant o w₂) (h₁ : TouchedKeys w₁ t₁)
    (h₂ : TouchedKeys w₂ t₂) : t₁.SameTenant o t₂ := by
  obtain ⟨_, rfl⟩ := h₁
  obtain ⟨_, rfl⟩ := h₂
  exact ⟨h.now, h.nonce, h.organization, h.members, h.projects, h.creators, h.featureFlagOverrides,
    h.subscriptions, h.featureFlags⟩

theorem TouchedKeys.within {w t : World} (h : TouchedKeys w t) : w.WritesWithin o t := by
  obtain ⟨apiKeys, rfl⟩ := h
  exact ⟨⟨w.projects, apiKeys, w.nonce, rfl⟩, fun _ _ _ => Iff.rfl⟩

def ProjectRequest.Confined (r : ProjectRequest) (o : Id) (w : World)
    (res : Except Err ProjectReply) (t : World) : Prop :=
  w.WritesWithin o t ∧ ∀ a, res = .ok a → ∃ u, r.CalledBy w u ∧ (w.membership o u).isSome = true

theorem ProjectRequest.Confined.refused {r : ProjectRequest} {w t : World} {e : Err}
    (h : w.WritesWithin o t) :
    r.Confined o w (.error e) t := ⟨h, fun _ heq => (by cases heq)⟩

theorem ProjectRequest.together {r : ProjectRequest} (h : r.Agrees o w₁ w₂)
    (hplans : r.SamePlans o w₁ w₂) :
    Together (fun res t₁ _ => r.Confined o w₁ res t₁) (r.prog env o) w₁ w₂ := by
  cases r with
  | jwt header route =>
    refine (authenticate_same h.tenant.now fun u hu => (h.caller u hu).user).together_bind
      (fun _ => .refused (.refl o w₁)) fun caller hcaller => ?_
    have hsame := h.caller caller.id hcaller
    refine (requireVerifiedEmail_same hsame.user).together_bind (fun _ => .refused (.refl o w₁))
      fun _ _ => ?_
    refine (requireTenant_same h.tenant caller).together_bind (fun _ => .refused (.refl o w₁))
      fun tenant htenant => ?_
    have hplan : ∀ k s, w₁.subscriptions.get? k = some s →
      (s.organizationId = some o ∨ s.userId = some caller.id) →
        w₁.plans.get? s.planId = w₂.plans.get? s.planId :=
      fun k s hk hs => hplans k s hk (hs.imp_right fun hs => ⟨caller.id, hcaller, hs⟩)
    refine (projectRoute_serve h.tenant hsame hplan htenant.1 route).weaken fun _ _ _ hwithin => ?_
    exact ⟨hwithin, fun _ _ => ⟨caller.id, hcaller, htenant.2⟩⟩
  | apiKey header route =>
    refine Prog.Together.bind (authenticateApiKey_together h) ?_ ?_
    · rintro ⟨apiKey, caller⟩ t₁ t₂ ⟨htouched₁, htouched₂, hcaller⟩
      have htenants := h.tenant.touched htouched₁ htouched₂
      have hrefused : ∀ e, (ProjectRequest.apiKey header route).Confined o w₁ (.error e) t₁ :=
        fun _ => .refused htouched₁.within
      refine (requireScope_same _ apiKey).together_bind hrefused fun _ _ => ?_
      refine (requireTenant_same htenants caller).together_bind hrefused fun tenant htenant => ?_
      refine (apiKeyRoute_serve htenants htenant.1 route).weaken fun _ _ _ hwithin => ?_
      refine ⟨htouched₁.within.trans hwithin, fun _ _ => ⟨caller.id, hcaller _ rfl, ?_⟩⟩
      obtain ⟨_, rfl⟩ := htouched₁
      exact htenant.2
    · rintro e t₁ t₂ ⟨htouched₁, _, _⟩
      exact .refused htouched₁.within

theorem ProjectRequest.Agrees.refl (r : ProjectRequest) (o : Id) (w : World) : r.Agrees o w w :=
  ⟨⟨rfl, rfl, rfl, rfl, rfl, fun _ _ _ _ => rfl, rfl, rfl, rfl⟩, fun _ _ => ⟨rfl, rfl⟩,
    fun _ _ _ => rfl⟩

end Routes

/-- A request to the projects of organization `o` answers the same in all states that agree
on what is the caller's, the organization's and the plans'; it changes no other
organization's rows, and is answered only for a member. -/
theorem projects_isolated (env : Env) (r : ProjectRequest) (o : Id) (w : World) :
    (∀ w₂, r.Agrees o w w₂ → r.SamePlans o w w₂ →
      ((r.prog env o).runs w).1 = ((r.prog env o).runs w₂).1) ∧
      w.WritesWithin o ((r.prog env o).runs w).2 ∧
      ∀ a, ((r.prog env o).runs w).1 = .ok a → ∃ u, r.CalledBy w u ∧
      (w.membership o u).isSome = true :=
  ⟨fun _ h hplans => (ProjectRequest.together h hplans).1,
    (ProjectRequest.together (.refl r o w) fun _ _ _ _ => rfl).2⟩

section Sample

def plannedWorld (code : String) : World where
  users := (∅ : Table User).insert 1 { email := "a@x.io", emailVerified := true }
  organizations :=
    (∅ : Table Organization).insert 3 { name := "Acme", slug := "acme", ownerId := 1 }
  members := (∅ : Table OrganizationMember).insert 4 ⟨3, 1, .owner, 0⟩
  projects :=
    (∅ : Table Project).insert 5 { organizationId := 3, createdById := 1, name := "Launch" }
  plans := (∅ : Table Plan).insert 6 { name := "Plan", code, stripePriceId := 7 }
  subscriptions := (∅ : Table Subscription).insert 8
    { organizationId := some 3, planId := 6, stripeSubscriptionId := 9, stripeCustomerId := 10,
      status := .active }
  nonce := 11

def besideWorld : World :=
  { plannedWorld "pro" with
    organizations :=
      (plannedWorld "pro").organizations.insert 12
      { name := "Other", slug := "other", ownerId := 1 }
    projects :=
      (plannedWorld "pro").projects.insert 13
      { organizationId := 12, createdById := 1, name := "Secret" } }

def analyses : ProjectRequest := .jwt (.bearer ⟨1, "a@x.io", .user, 0, 100⟩)
    (.projectAnalytics .tableOrder)

theorem plannedWorld_agrees : analyses.Agrees 3 (plannedWorld "pro") (plannedWorld "basic") :=
  ⟨⟨rfl, rfl, rfl, rfl, rfl, fun _ _ _ _ => rfl, rfl, rfl, rfl⟩, fun _ _ => ⟨rfl, rfl⟩,
    fun _ _ _ => rfl⟩

theorem projects_isolated_beside :
    ((analyses.prog sampleEnv 3).runs (plannedWorld "pro")).1 = .ok (.analytics 1 [(.active, 1)]) ∧
      ((analyses.prog sampleEnv 3).runs (plannedWorld "pro")).1 =
        ((analyses.prog sampleEnv 3).runs besideWorld).1 :=
  ⟨by decide +kernel, (projects_isolated sampleEnv analyses 3 (plannedWorld "pro")).1 besideWorld
    ⟨⟨rfl, rfl, rfl, rfl, rfl, fun _ _ _ _ => rfl, rfl, rfl, rfl⟩, fun _ _ => ⟨rfl, rfl⟩,
      fun _ _ _ => rfl⟩
    fun _ _ _ _ => rfl⟩

/-- The plan's row decides whether the request is served. -/
theorem plan_row_shows :
    analyses.Agrees 3 (plannedWorld "pro") (plannedWorld "basic") ∧
      ((analyses.prog sampleEnv 3).runs (plannedWorld "pro")).1 ≠
        ((analyses.prog sampleEnv 3).runs (plannedWorld "basic")).1 :=
  ⟨plannedWorld_agrees, by decide +kernel⟩

end Sample

end SaasBackend
