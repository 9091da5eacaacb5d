import SaasBackend.FeatureFlagRoutes
import SaasBackend.GoogleLinking

set_option autoImplicit false

namespace SaasBackend
open Keyed Handler

inductive SubscriptionGate where
  | personal | organization
  deriving DecidableEq, Repr

def SubscriptionGate.guard (first : NewestFirst) (caller : Caller) (tenant : Tenant) :
    SubscriptionGate → Req ActiveSubscription
  | .personal => requireSubscription first caller
  | .organization => requireOrgSubscription first tenant

def reachFlagGate (first : NewestFirst) (header : AuthHeader) (orgId : Id)
    (gate : SubscriptionGate) (planCodes : Option (List String)) :
    Req (Tenant × ActiveSubscription) := do
  let caller ← authenticate header
  requireVerifiedEmail caller
  let tenant ← requireTenant orgId caller
  let subscription ← gate.guard first caller tenant
  planCodes.elim (pure ()) (requirePlan · subscription)
  return (tenant, subscription)

def flagGate (env : Env) (first : NewestFirst) (header : AuthHeader) (orgId : Id)
    (gate : SubscriptionGate) (planCodes : Option (List String)) (key : String) : Req FlagResult :=
  (reachFlagGate first header orgId gate planCodes).bind fun r =>
    requireFeatureFlag env key r.1 (some r.2)

theorem exportProjects_gated (env : Env) (first : NewestFirst) (header : AuthHeader) (orgId : Id) :
    (ProjectRoute.exportProjects first).handle env header orgId =
      (reachFlagGate first header orgId .personal (some ["pro", "enterprise"])).bind fun r =>
        (requireFeatureFlag env "projects_export" r.1 (some r.2)).bind fun _ =>
          exportProjects env r.1.id := by
  simp only [ProjectRoute.handle, ProjectRoute.serve, reachFlagGate, SubscriptionGate.guard,
    Option.elim_some, Prog.bind_eq, Prog.bind_assoc, Prog.pure_eq, Prog.ret_bind]

def World.flagSetting (w : World) (flagId orgId : Id) (flag : FeatureFlag) : Json × Bool :=
  match w.overrideOf flagId orgId with
  | some (_, o) => (o.value, o.enabled)
  | none => (flag.value, true)

def Json.takesPlan (value : Json) (planCode : Option String) : Prop :=
  planListed (Json.nullish (value.field "plans") (.arr [])) (planCode.filter (· ≠ "")) = .ok true

/-- No plan list that decides over the flag tells the two plan codes apart. -/
def World.PlansAlike (w : World) (key : String) (orgId : Id)
    (planCode planCode' : Option String) : Prop :=
  ∀ flagId flag, w.featureFlags.find? (fun _ f => f.key == key) = some (flagId, flag) →
    flag.active = true → flag.type = .plan → (w.flagSetting flagId orgId flag).2 = true →
      ((w.flagSetting flagId orgId flag).1.takesPlan planCode ↔
        (w.flagSetting flagId orgId flag).1.takesPlan planCode')

section Evaluation

variable {env : Env} {w : World} {key : String} {o : Id} {planCode planCode' : Option String}

def EvaluatesOn (env : Env) (w : World) (key : String) (o : Id) (planCode : Option String) : Prop :=
  ∃ r, (evaluateFlag env key (some o) planCode).runs w = (.ok r, w) ∧ r.enabled = true

theorem evaluatesOn_iff : EvaluatesOn env w key o planCode ↔
    ∃ flagId flag, w.featureFlags.find? (fun _ f => f.key == key) = some (flagId, flag) ∧
      flag.active = true ∧
      evaluateByType env flag.type (w.flagSetting flagId o flag).1 (w.flagSetting flagId o flag).2
        planCode key (some o) =
        .ok true := by
  have hthrow : ∀ (reason : FlagReason) (e : Except Err Bool),
      (∃ r, Req.runs ((orThrow e).bind fun enabled => .ret (⟨key, enabled, reason⟩ : FlagResult))
        w = (.ok r, w) ∧
        r.enabled = true) ↔ e = .ok true := by
    intro reason e
    cases e with
    | error e => exact ⟨fun ⟨_, h, _⟩ => (by cases h), fun h => (by cases h)⟩
    | ok enabled =>
      constructor
      · rintro ⟨r, h, henabled⟩
        cases h
        exact congrArg _ henabled
      · rintro ⟨⟩
        exact ⟨_, rfl, rfl⟩
  unfold EvaluatesOn
  simp only [evaluateFlag, Prog.bind_eq, runs_query_bind]
  cases hfound : w.featureFlags.find? (fun _ f => f.key == key) with
  | none =>
    refine ⟨fun ⟨r, h, henabled⟩ => ?_, fun ⟨_, _, h, _⟩ => (by cases h)⟩
    cases h
    cases henabled
  | some found =>
    obtain ⟨flagId, flag⟩ := found
    dsimp only
    split
    · rename_i hinactive
      refine ⟨fun ⟨r, h, henabled⟩ => ?_, fun ⟨_, _, h, hactive, _⟩ => ?_⟩
      · cases h
        cases henabled
      · cases h
        simp [hactive] at hinactive
    rename_i hactive
    have hsetting : ∀ (reason : FlagReason) (setting : Json × Bool),
      w.flagSetting flagId o flag = setting →
        ((∃ r, Req.runs
          ((orThrow (evaluateByType env flag.type setting.1 setting.2 planCode key (some o))).bind
          fun enabled => .ret (⟨key, enabled, reason⟩ : FlagResult)) w = (.ok r, w) ∧
          r.enabled = true) ↔
        ∃ flagId' flag', some (flagId, flag) = some (flagId', flag') ∧ flag'.active = true ∧
        evaluateByType env flag'.type
          (w.flagSetting flagId' o flag').1 (w.flagSetting flagId' o flag').2 planCode key
          (some o) = .ok true) := by
      rintro reason _ rfl
      refine (hthrow reason _).trans ⟨fun h => ⟨flagId, flag, rfl, by simpa using hactive, h⟩, ?_⟩
      rintro ⟨_, _, heq, _, h⟩
      cases heq
      exact h
    rw [runs_query_bind]
    split
    · rename_i id r hoverride
      exact hsetting .override (r.value, r.enabled)
        (by simp only [World.flagSetting, World.overrideOf, hoverride])
    · rename_i hnone
      exact hsetting .default (flag.value, true)
        (by simp only [World.flagSetting, World.overrideOf, hnone])

theorem evaluatesOn_congr_iff :
    (EvaluatesOn env w key o planCode ↔ EvaluatesOn env w key o planCode') ↔
    w.PlansAlike key o planCode planCode' := by
  rw [evaluatesOn_iff, evaluatesOn_iff, World.PlansAlike]
  have hplan : ∀ (value : Json) (c : Option String),
      evaluateByType env .plan value true c key (some o) = .ok true ↔ value.takesPlan c :=
        fun _ _ => Iff.rfl
  constructor
  · intro h flagId flag hfound hactive htype hon
    have heach : ∀ c,
      (∃ flagId' flag', w.featureFlags.find? (fun _ f => f.key == key) = some (flagId', flag') ∧
        flag'.active = true ∧ evaluateByType env flag'.type (w.flagSetting flagId' o flag').1
          (w.flagSetting flagId' o flag').2 c key (some o) = .ok true) ↔
          (w.flagSetting flagId o flag).1.takesPlan c := by
      intro c
      rw [← hplan]
      constructor
      · rintro ⟨_, _, heq, _, hok⟩
        rw [hfound] at heq
        cases heq
        rwa [htype, hon] at hok
      · exact fun hok => ⟨flagId, flag, hfound, hactive, by rwa [htype, hon]⟩
    rw [← heach, ← heach]
    exact h
  · intro h
    refine exists_congr fun flagId => exists_congr fun flag => and_congr_right fun hfound =>
      and_congr_right fun hactive => ?_
    cases hon : (w.flagSetting flagId o flag).2 with
    | false => exact Iff.rfl
    | true =>
      cases htype : flag.type with
      | plan => exact h flagId flag hfound hactive htype hon
      | boolean | percentage => exact Iff.rfl

end Evaluation

section Gates

variable {env : Env} {w : World} {first orgFirst ownerFirst : NewestFirst}
  {header : AuthHeader} {o : Id} {gate : SubscriptionGate}
  {planCodes : Option (List String)} {tenant : Tenant} {subscription : ActiveSubscription}
  {key : String}

def SubscriptionGate.owned (userId orgId : Id) : SubscriptionGate → Subscription → Bool
  | .personal, s => s.userId == some userId
  | .organization, s => s.organizationId == some orgId

structure ReachesFlag (first : NewestFirst) (header : AuthHeader) (o : Id)
    (gate : SubscriptionGate) (w : World) (tenant : Tenant)
    (subscription : ActiveSubscription) : Prop where
  accepted : ∃ token x, header = .bearer token ∧ AccessStands w token x ∧
    w.activeSubscription first (gate.owned token.id o) = some subscription
  tenant : tenant.id = o

theorem reachFlagGate_ends :
    (reachFlagGate first header o gate planCodes).Ends Stmt.exec (fun r w' =>
    ∀ tenant subscription, r = .ok (tenant, subscription) →
    w' = w ∧ ReachesFlag first header o gate w tenant subscription) w := by
  unfold reachFlagGate
  refine ends_authenticate_bind (fun _ _ _ _ h => (by cases h)) fun token x hheader hx => ?_
  have hverified : ∀ {k : Unit → Req (Tenant × ActiveSubscription)} {post},
    (∀ e, post (.error e) w) →
      (k ()).Ends Stmt.exec post w →
        ((requireVerifiedEmail (token.caller x)).bind k).Ends Stmt.exec post w := by
    intro k post herr hk
    simp only [requireVerifiedEmail, AccessToken.caller]
    split
    · exact hk
    · exact herr _
  refine hverified (fun _ _ _ h => (by cases h)) ?_
  simp only [requireTenant, Prog.bind_eq, Prog.bind_assoc, ends_query_bind]
  split
  · rename_i tenant hfound
    have htenant : tenant.id = o := by
      obtain ⟨_, _, hjoin⟩ := Option.bind_eq_some_iff.mp hfound
      obtain ⟨_, _, heq⟩ := Option.map_eq_some_iff.mp hjoin
      obtain ⟨rfl, _⟩ := Prod.mk.inj heq
      rfl
    have hguard : gate.guard first (token.caller x) tenant =
        subscriptionGate first (gate.owned token.id o) := by
      cases gate with
      | personal => rfl
      | organization => rw [← htenant]; rfl
    simp only [Prog.pure_eq, Prog.ret_bind, hguard, subscriptionGate, Prog.bind_eq, Prog.bind_assoc,
      ends_query_bind]
    split
    · rename_i subscription hsubscription
      have hdone : ∀ tenant' subscription',
        (.ok (tenant, subscription) : Except Err (Tenant × ActiveSubscription)) =
          .ok (tenant', subscription') →
            w = w ∧ ReachesFlag first header o gate w tenant' subscription' := by
        rintro _ _ ⟨⟩
        exact ⟨rfl, ⟨token, x, hheader, hx, hsubscription⟩, htenant⟩
      cases planCodes with
      | none => exact hdone
      | some codes =>
        simp only [Option.elim_some, requirePlan, Prog.ret_bind]
        split
        · exact hdone
        · exact fun _ _ h => (by cases h)
    · exact fun _ _ h => (by cases h)
  · exact fun _ _ h => (by cases h)

theorem reachFlagGate_runs (hreach : ((reachFlagGate first header o gate planCodes).runs w).1 =
    .ok (tenant, subscription)) :
    (reachFlagGate first header o gate planCodes).runs w = (.ok (tenant, subscription), w) ∧
      ReachesFlag first header o gate w tenant subscription := by
  obtain ⟨hw, h⟩ :=
    (reachFlagGate_ends :
      (reachFlagGate first header o gate planCodes).Ends Stmt.exec _ w) _ _ hreach
  exact ⟨Prod.ext hreach hw, h⟩

theorem requireFeatureFlag_admits (subscription : Option ActiveSubscription) :
    (∃ r, ((requireFeatureFlag env key tenant subscription).runs w).1 = .ok r) ↔
      EvaluatesOn env w key tenant.id ((subscription.map (·.planCode)).filter (· ≠ "")) := by
  have hreads :
      ((evaluateFlag env key (some tenant.id)
      ((subscription.map (·.planCode)).filter (· ≠ ""))).runs w).2 = w :=
    runs_of_reads (evaluateFlag_reads ..) w
  unfold requireFeatureFlag EvaluatesOn
  simp only [Req.runs, Prog.bind_eq, Prog.run_bind] at hreads ⊢
  cases hrun : (evaluateFlag env key (some tenant.id)
    ((subscription.map (·.planCode)).filter (· ≠ ""))).run Stmt.exec w with
  | mk res w' =>
    rw [hrun] at hreads
    obtain rfl : w' = w := hreads
    cases res with
    | error e => exact iff_of_false (by rintro ⟨_, h⟩; cases h) (by rintro ⟨_, h, _⟩; cases h)
    | ok r =>
      dsimp only
      cases henabled : r.enabled with
      | false =>
        refine iff_of_false (by rintro ⟨_, h⟩; simp at h) ?_
        rintro ⟨_, h, h'⟩
        cases h
        rw [henabled] at h'
        cases h'
      | true => exact ⟨fun _ => ⟨r, rfl, henabled⟩, fun _ => ⟨r, by simp⟩⟩

theorem evaluatesOn_filter (planCode : Option String) :
    EvaluatesOn env w key o (planCode.filter (· ≠ "")) ↔ EvaluatesOn env w key o planCode := by
  refine evaluatesOn_congr_iff.mpr fun flagId flag _ _ _ _ => ?_
  simp only [Json.takesPlan, Option.filter_filter, Bool.and_self]

theorem evaluateRoute_enabled {token : AccessToken} {x : User} (hx : AccessStands w token x) :
    (∃ r, (((FlagRoute.evaluateFlag key (some o) orgFirst ownerFirst).handle env
      (.bearer token)).runs w).1 =
      .ok (.result r) ∧
      r.enabled = true) ↔ EvaluatesOn env w key o (w.planCodeFor orgFirst ownerFirst o) := by
  have hcaller : (authenticate (.bearer token)).run Stmt.exec w = (.ok (token.caller x), w) := by
    rcases authenticate_runs w token with ⟨y, hy, hrun⟩ | ⟨hnone, _⟩
    · cases hx.user.symm.trans hy.user
      exact hrun
    · exact absurd hx (hnone x)
  have hplan : (organizationPlanCode orgFirst ownerFirst o).run Stmt.exec w =
    (.ok (w.planCodeFor orgFirst ownerFirst o), w) :=
    organizationPlanCode_runs w orgFirst ownerFirst o
  have hreads : ((evaluateFlag env key (some o) (w.planCodeFor orgFirst ownerFirst o)).runs
    w).2 = w :=
    runs_of_reads (evaluateFlag_reads ..) w
  unfold EvaluatesOn
  simp only [FlagRoute.handle, FlagRoute.serve, FlagRoute.adminOnly, evaluateFlagFor, when,
    Req.runs, Prog.bind_eq, Prog.run_bind, hcaller, hplan, Bool.false_eq_true, if_false,
    Prog.pure_eq, Prog.run_ret] at hreads ⊢
  cases hrun : (evaluateFlag env key (some o) (w.planCodeFor orgFirst ownerFirst o)).run
    Stmt.exec w with
  | mk res w' =>
    rw [hrun] at hreads
    obtain rfl : w' = w := hreads
    cases res with
    | error e => exact iff_of_false (by rintro ⟨_, h, _⟩; cases h) (by rintro ⟨_, h, _⟩; cases h)
    | ok r =>
      constructor
      · rintro ⟨r', h, henabled⟩
        cases h
        exact ⟨r, rfl, henabled⟩
      · rintro ⟨r', h, henabled⟩
        cases h
        exact ⟨r, rfl, henabled⟩

theorem flagGate_admits (hreach : ((reachFlagGate first header o gate planCodes).runs w).1 =
    .ok (tenant, subscription)) :
    (∃ r, ((flagGate env first header o gate planCodes key).runs w).1 = .ok r) ↔
      EvaluatesOn env w key o (some subscription.planCode) := by
  obtain ⟨hrun, hreached⟩ := reachFlagGate_runs hreach
  obtain rfl := hreached.tenant
  have hgate : (flagGate env first header tenant.id gate planCodes key).runs w =
      (requireFeatureFlag env key tenant (some subscription)).runs w := by
    simp only [flagGate, Req.runs, Prog.run_bind] at hrun ⊢
    rw [hrun]
  rw [hgate, requireFeatureFlag_admits]
  exact evaluatesOn_filter (some subscription.planCode)

theorem ReachesFlag.planCode (h : ReachesFlag first header o .organization w tenant subscription)
    {x : Id × Subscription}
    (hsole : SoleNewest (w.rowsOf (fun s => s.organizationId == some o) [.active, .trialing]) x) :
    w.planCodeFor orgFirst ownerFirst o = some subscription.planCode := by
  obtain ⟨_, _, _, _, hactive⟩ := h.accepted
  have hown : w.activeSubscription orgFirst (fun s => s.organizationId == some o) =
      some subscription := by
    rw [← hactive]
    simp only [World.activeSubscription, SubscriptionGate.owned]
    exact congrArg (Option.bind · _) ((hsole.pick_eq orgFirst).trans (hsole.pick_eq first).symm)
  rw [World.planCodeFor, hown]

end Gates

/-- The gate and the endpoint agree over a request that has come to requireFeatureFlag exactly when
no plan list that decides over the flag tells the two plan codes apart. -/
theorem flag_gate_agrees_iff (env : Env) {w : World} {first : NewestFirst} {header : AuthHeader}
    {o : Id} {gate : SubscriptionGate} {planCodes : Option (List String)} {tenant : Tenant}
    {subscription : ActiveSubscription} (hreach :
      ((reachFlagGate first header o gate planCodes).runs w).1 = .ok (tenant, subscription))
    (key : String) (orgFirst ownerFirst : NewestFirst) :
    ((∃ r, ((flagGate env first header o gate planCodes key).runs w).1 = .ok r) ↔
      ∃ r, (((FlagRoute.evaluateFlag key (some o) orgFirst ownerFirst).handle env header).runs
        w).1 = .ok (.result r) ∧ r.enabled = true) ↔
    w.PlansAlike key o (some subscription.planCode) (w.planCodeFor orgFirst ownerFirst o) := by
  obtain ⟨token, x, rfl, hx, _⟩ := (reachFlagGate_runs hreach).2.accepted
  rw [flagGate_admits hreach, evaluateRoute_enabled hx]
  exact evaluatesOn_congr_iff

/-- Whatever the flag, behind requireOrgSubscription the gate and the endpoint agree where one
of the organization's subscriptions is newer than the others. -/
theorem flag_gate_agrees_organization (env : Env) {w : World} {first : NewestFirst}
    {header : AuthHeader} {o : Id} {planCodes : Option (List String)} {tenant : Tenant}
    {subscription : ActiveSubscription} (hreach :
      ((reachFlagGate first header o .organization planCodes).runs w).1 =
        .ok (tenant, subscription))
    {x : Id × Subscription}
    (hsole : SoleNewest (w.rowsOf (fun s => s.organizationId == some o) [.active, .trialing]) x)
    (key : String) (orgFirst ownerFirst : NewestFirst) :
    (∃ r, ((flagGate env first header o .organization planCodes key).runs w).1 = .ok r) ↔
      ∃ r, (((FlagRoute.evaluateFlag key (some o) orgFirst ownerFirst).handle env header).runs
        w).1 = .ok (.result r) ∧ r.enabled = true := by
  obtain ⟨_, hreached⟩ := reachFlagGate_runs hreach
  obtain ⟨token, x, rfl, hx, _⟩ := hreached.accepted
  rw [flagGate_admits hreach, evaluateRoute_enabled hx, hreached.planCode hsole]

section Sample

def proOf (u : Id) : Subscription where
  userId := some u
  planId := 7
  stripeSubscriptionId := 100 + u
  stripeCustomerId := 200 + u
  status := .active

def proOffice (subscriptions : Table Subscription) : World where
  users := ((∅ : Table User).insert 1 { email := "a@x.io", emailVerified := true }).insert 2
    { email := "b@x.io", emailVerified := true }
  organizations := Table.insert ∅ 3 { name := "Acme", slug := "acme", ownerId := 1 }
  members :=
    ((∅ : Table OrganizationMember).insert 4
    { organizationId := 3, userId := 1, role := .owner }).insert 5
    { organizationId := 3, userId := 2, role := .member }
  featureFlags := Table.insert ∅ 6
    { key := "projects_export", name := "Export", type := .plan,
      value := .obj [("plans", .arr [.str "pro"])] }
  plans := Table.insert ∅ 7 { name := "Pro", code := "pro", stripePriceId := 8 }
  subscriptions
  nonce := 20

def member2 : AuthHeader := .bearer ⟨2, "b@x.io", .user, 0, 100⟩

/-- A member with a pro plan of his own gets at the exports of an organization without one. -/
theorem flag_gate_disagrees :
    let w := proOffice (Table.insert ∅ 9 (proOf 2))
    (∃ r, ((reachFlagGate .tableOrder member2 3 .personal (some ["pro", "enterprise"])).runs
        w).1 = .ok r) ∧
      (∃ r, ((flagGate sampleEnv .tableOrder member2 3 .personal (some ["pro", "enterprise"])
        "projects_export").runs w).1 = .ok r) ∧
      ¬ ∃ r, (((FlagRoute.evaluateFlag "projects_export" (some 3) .tableOrder .tableOrder).handle
        sampleEnv member2).runs w).1 = .ok (.result r) ∧ r.enabled = true := by
  refine ⟨⟨_, rfl⟩, ⟨_, rfl⟩, ?_⟩
  rintro ⟨r, hr, henabled⟩
  cases hr
  cases henabled

/-- The member's plan is the owner's too. -/
theorem flag_gate_agrees_iff_owner :
    let w := proOffice ((Table.insert ∅ 9 (proOf 2)).insert 10 (proOf 1))
    (∃ r, ((flagGate sampleEnv .tableOrder member2 3 .personal (some ["pro", "enterprise"])
      "projects_export").runs w).1 = .ok r) ↔
      ∃ r, (((FlagRoute.evaluateFlag "projects_export" (some 3) .tableOrder .tableOrder).handle
        sampleEnv member2).runs w).1 = .ok (.result r) ∧ r.enabled = true := by
  intro w
  have hreach : ((reachFlagGate .tableOrder member2 3 .personal
      (some ["pro", "enterprise"])).runs w).1 =
      .ok (⟨3, "Acme", "acme", 1, .member⟩, ⟨9, .active, 7, "Pro", "pro"⟩) := by decide +kernel
  have hplan : w.planCodeFor .tableOrder .tableOrder 3 = some "pro" := by decide +kernel
  exact (flag_gate_agrees_iff sampleEnv hreach "projects_export" .tableOrder .tableOrder).mpr
    fun _ _ _ _ _ _ => by rw [hplan]

end Sample

end SaasBackend
