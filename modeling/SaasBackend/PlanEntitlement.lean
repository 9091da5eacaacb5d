import SaasBackend.WebhookOrder

set_option autoImplicit false

namespace SaasBackend
open Keyed Handler NewestWins

def World.paidPlan (w : World) (stripeSub : StripeSub) : Option (Id × Plan) :=
  stripeSub.items.head?.bind (fun item => w.plans.find? (fun _ p => p.stripePriceId == item.price))

/-- requireSubscription or requireOrgSubscription, then requirePlan. -/
def planGate (first : NewestFirst) (owned : Subscription → Bool) (planCodes : List String) :
    Req Unit := do
  let subscription ← subscriptionGate first owned
  requirePlan planCodes subscription

/-- The subscription's row is of this plan, and where it is the one that the gate finds, the
gate opens for the code of this plan and no other. -/
def EntitlesTo (sid planId : Id) (p : Plan) (w : World) : Prop :=
  ∃ k r, w.subscriptions.get? k = some r ∧ r.stripeSubscriptionId = sid ∧
    (∀ k' r', w.subscriptions.get? k' = some r' → r'.stripeSubscriptionId = sid →
      r'.planId = planId) ∧
    ∀ first owned found, w.activeSubscription first owned = some found →
      (∀ r', w.subscriptions.get? found.id = some r' → r'.stripeSubscriptionId = sid) →
      ∀ planCodes, ((planGate first owned planCodes).runs w).1 = .ok () ↔
        planCodes.contains p.code = true

section Gate

variable {w : World} {first : NewestFirst} {owned : Subscription → Bool}
  {found : ActiveSubscription}

theorem activeSubscription_row (h : w.activeSubscription first owned = some found) :
    ∃ r p, w.subscriptions.get? found.id = some r ∧ owned r = true ∧
      w.plans.get? r.planId = some p ∧ found.planId = r.planId ∧ found.planCode = p.code := by
  obtain ⟨⟨k, r⟩, hpick, hplan⟩ := Option.bind_eq_some_iff.mp h
  obtain ⟨p, hp, rfl⟩ := Option.map_eq_some_iff.mp hplan
  obtain ⟨hk, howned⟩ := Table.mem_filter.mp (first.mem hpick)
  simp only [Bool.and_eq_true] at howned
  exact ⟨r, p, hk, howned.1, hp, rfl, rfl⟩

theorem planGate_ok_iff (h : w.activeSubscription first owned = some found)
    (planCodes : List String) :
    ((planGate first owned planCodes).runs w).1 = .ok () ↔
      planCodes.contains found.planCode = true := by
  have hrun : (planGate first owned planCodes).runs w = (requirePlan planCodes found).runs w := by
    unfold planGate subscriptionGate Req.runs
    simp only [Prog.bind_eq, query, Prog.send_bind, Prog.stmt_bind, Prog.run_stmt, Stmt.exec, h]
    rfl
  rw [hrun, requirePlan]
  by_cases hcode : planCodes.contains found.planCode = true
  · simp only [hcode, if_true]
    exact iff_of_true rfl trivial
  · simp only [hcode]
    exact iff_of_false (fun hok => by cases hok) (by simp)

end Gate

/-- Once the newest of the created and updated events of a subscription has been applied, the
row is of the plan its metadata names, whatever its items cost. -/
theorem entitlement_from_metadata (env : Env)
    (hconf : env.stripeConfigured = true ∧ env.webhookSecretConfigured = true) {w₀ : World}
    {sid : Id} {ds : List (Delivery env)} (hc : Coherent w₀ sid ds)
    (hupserts : ∀ d ∈ ds, d.event.deletes = false) {d : Delivery env} (hd : d ∈ ds)
    (hnewest : ∀ d' ∈ ds, d'.event.created ≤ d.event.created) {p : Plan}
    (hp : w₀.plans.get? d.event.planId = some p) :
    EntitlesTo sid d.event.planId p (deliverAll w₀ ds) := by
  obtain ⟨cell, hcell, ht⟩ := hc.deliverAll hconf
  obtain ⟨c, rfl⟩ : ∃ c, cell = some c := by
    cases cell with
    | some c => exact ⟨c, rfl⟩
    | none =>
      have hwrite := mem_changesOf w₀.now hc hd (hupserts d hd)
      simp only [Option.map_none, finalObject, newestObject] at hcell
      split at hcell
      · cases hcell
      · rename_i hnone
        exact absurd hwrite (newest_none hnone _ _)
  have hplan : ∀ k r, (deliverAll w₀ ds).subscriptions.get? k = some r →
    r.stripeSubscriptionId = sid →
      r.planId = d.event.planId := by
    intro k r hk hr
    obtain ⟨c', hc', hshows⟩ := ht.row k r hk hr
    cases hc'
    have hterms := hshows.terms
    rw [hc.finalObject_own hd hnewest (hupserts d hd) hcell.symm] at hterms
    exact congrArg (·.2.2.1) hterms
  obtain ⟨_, k, r, hk, hr⟩ := ht.present c rfl
  refine ⟨k, r, hk, hr, hplan, fun first owned found hfound hsid planCodes => ?_⟩
  obtain ⟨r', p', hk', _, hp', _, hcode⟩ := activeSubscription_row hfound
  rw [hplan _ r' hk' (hsid r' hk'), ht.plans, hp] at hp'
  cases hp'
  rw [planGate_ok_iff hfound, hcode]

section Sample

def pricedSub (price : Id) : StripeSub := { sampleSub .active with items := [{ price }] }

def startedEvent : SubscriptionEvent where
  event := { id := 11, created := some 1, body := .subscriptionCreated (pricedSub 3) }
  stripeSub := pricedSub 3
  owner := ⟨some 1, none⟩
  planId := 2
  created := 1
  body := .inl rfl
  stamped := rfl
  positive := Nat.one_ne_zero
  target := rfl

def switchedEvent : SubscriptionEvent where
  event := { id := 12, created := some 2, body := .subscriptionUpdated (pricedSub 5) }
  stripeSub := pricedSub 5
  owner := ⟨some 1, none⟩
  planId := 2
  created := 2
  body := .inr (.inl rfl)
  stamped := rfl
  positive := deletedEvent.positive
  target := rfl

def portalEnv : Env :=
  { sampleEnv with
    constructEvent := fun rawBody _ =>
      if rawBody = "started" then .ok startedEvent.event else .ok switchedEvent.event }

def started : Delivery portalEnv := ⟨0, "started", "", startedEvent, rfl⟩
def switched : Delivery portalEnv := ⟨0, "switched", "", switchedEvent, rfl⟩

def pro : Plan := { name := "Pro", code := "pro", stripePriceId := 3 }
def enterprise : Plan := { name := "Enterprise", code := "enterprise", stripePriceId := 5 }

def twoPlans : World :=
  { users := (∅ : Table User).insert 1 { email := "a@x.io" }
    plans := ((∅ : Table Plan).insert 2 pro).insert 4 enterprise
    nonce := 20 }

theorem coherent_switch : Coherent twoPlans 7 [started, switched] := by
  have hds : ∀ d ∈ [started, switched], d = started ∨ d = switched := by simp
  have hnone : ∀ k, twoPlans.subscriptions.get? k = none := fun _ => rfl
  refine ⟨fun d hd => ?_, fun d hd d' hd' => ?_, fun d hd d' hd' => ?_, fun d hd => ?_,
    fun d hd => ?_, by simp [hnone], by simp [hnone], by simp [hnone]⟩
  · rcases hds d hd with rfl | rfl <;> rfl
  · rcases hds d hd with rfl | rfl <;> rcases hds d' hd' with rfl | rfl <;> decide
  · rcases hds d hd with rfl | rfl <;> rcases hds d' hd' with rfl | rfl <;> decide
  · rcases hds d hd with rfl | rfl <;> exact ⟨by decide, by decide, by decide, by decide⟩
  · rfl

theorem entitlement_from_metadata_switched :
    EntitlesTo 7 2 pro (deliverAll twoPlans [started, switched]) :=
  entitlement_from_metadata portalEnv ⟨rfl, rfl⟩ coherent_switch (d := switched)
    (by simp [started, switched, SubscriptionEvent.deletes, startedEvent, switchedEvent]) (by simp)
    (by simp [started, switched, startedEvent, switchedEvent]) rfl

/-- The newest event charges the price of the enterprise plan; the row stays on Pro, and the
gate opens for "pro" only. -/
theorem switched_price_ignored :
    Coherent twoPlans 7 [started, switched] ∧
    (∀ d ∈ [started, switched], d.event.created ≤ switchedEvent.created) ∧
      twoPlans.paidPlan switchedEvent.stripeSub = some (4, enterprise) ∧
      (∀ k r, (deliverAll twoPlans [started, switched]).subscriptions.get? k = some r →
        r.stripeSubscriptionId = 7 → r.planId ≠ 4) ∧
      ((planGate .tableOrder (fun s => s.userId == some 1) ["enterprise"]).runs
        (deliverAll twoPlans [started, switched])).1 ≠
        .ok () ∧
      ((planGate .tableOrder (fun s => s.userId == some 1) ["pro"]).runs
        (deliverAll twoPlans [started, switched])).1 = .ok () := by
  refine ⟨coherent_switch, by simp [started, switched, startedEvent, switchedEvent], rfl,
    fun k r hk _ => ?_, nofun, rfl⟩
  have hall : (deliverAll twoPlans [started, switched]).subscriptions.rows.all
      (fun p => p.2.planId != 4) = true := by
    decide
  simpa using List.all_eq_true.mp hall _ (Table.mem_rows.mpr hk)

end Sample

end SaasBackend
