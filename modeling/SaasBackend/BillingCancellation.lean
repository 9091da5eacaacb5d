import SaasBackend.Footprints
import SaasBackend.HandlerHistory
import SaasBackend.OrganizationService
import SaasBackend.WebhookOrder

/-! What can undo a cancellation. A cancellation through the API writes CANCELED into the
row but leaves its stripeEventCreatedAt alone, so the ordering guard compares a later
delivery with the newest event from before the cancellation. -/

set_option autoImplicit false

namespace SaasBackend
open Keyed Handler

def Stmt.stamped : Stmt → Bool
  | .subscriptionApply row stamp => row.stripeEventCreatedAt == some stamp
  | _ => true

/-- The requests of a run. `other` is any handler whose conditional updates are stamped,
and the passing of time. -/
inductive BillingRequest where
  | cancelSubscription (first : NewestFirst) (userId : Id)
  | cancelOrgSubscription (first : NewestFirst) (organizationId : Id)
  | deleteOrganization (orgId : Id)
  | webhook (rawBody : String) (signature : Option String)
  | other (p : Req Unit) (stamped : p.Sends (fun l => l.stamped = true))

def BillingRequest.prog (env : Env) : BillingRequest → Req Unit
  | .cancelSubscription first userId =>
    (SaasBackend.cancelSubscription env first userId).bind fun _ => .ret ()
  | .cancelOrgSubscription first organizationId =>
    (SaasBackend.cancelOrgSubscription env first organizationId).bind fun _ => .ret ()
  | .deleteOrganization orgId => (SaasBackend.deleteOrganization env orgId).bind fun _ => .ret ()
  | .webhook rawBody signature => (handleWebhook env rawBody signature).bind fun _ => .ret ()
  | .other p _ => p

abbrev BillingEntry := Entry BillingRequest World Err Unit

abbrev BillingRun (env : Env) : World → List BillingEntry → World → Prop :=
  Steps (Served Stmt.exec (BillingRequest.prog env) (fun _ _ => True))

def BillingRequest.cancels : BillingRequest → Bool
  | .cancelSubscription .. | .cancelOrgSubscription .. | .deleteOrganization _ => true
  | _ => false

def BillingRequest.delivers (env : Env) : BillingRequest → Option StripeEvent
  | .webhook rawBody (some signature) =>
    if env.stripeConfigured && env.webhookSecretConfigured then
      (env.constructEvent rawBody signature).toOption
    else none
  | _ => none

def StripeEvent.upserts (event : StripeEvent) : Option StripeSub :=
  match event.body with
  | .subscriptionCreated stripeSub | .subscriptionUpdated stripeSub => some stripeSub
  | _ => none

def Subscription.live (r : Subscription) : Bool := liveSubscriptionStatuses.contains r.status

structure BillingEntry.Cancels (c : BillingEntry) (k : Id) : Prop where
  cancels : c.req.cancels = true
  served : c.res = .ok ()
  marked : ∃ r r', c.pre.subscriptions.get? k = some r ∧ r.status ≠ .canceled ∧
    c.post.subscriptions.get? k = some r' ∧ r'.status = .canceled
  atStripe : ∀ r, c.pre.subscriptions.get? k = some r →
    ∃ s, c.post.stripe.get? r.stripeSubscriptionId = some s ∧ s.status = .canceled

def BillingEntry.Late (env : Env) (instant : Time) (d : BillingEntry) (event : StripeEvent)
    (stripeSub : StripeSub) : Prop :=
  d.req.delivers env = some event ∧ event.upserts = some stripeSub ∧
    ∃ created, event.created = some created ∧ created * 1000 ≤ instant

def BillingEntry.PutsBack (d : BillingEntry) (k : Id) : Prop :=
  ∃ r r', d.pre.subscriptions.get? k = some r ∧ r.live = false ∧
    d.post.subscriptions.get? k = some r' ∧ r'.live = true

/-- Whether `upsertSubscription` replaces row `r` by `data`: what `data` points to exists,
and the row is of the same subscription and not newer. -/
def World.replaces (w : World) (data : Subscription) (stamp : Time) (r : Subscription) : Bool :=
  w.hasPlan data.planId && World.ownerXor data && data.userId.all w.hasUser &&
    data.organizationId.all w.hasOrganization && subscriptionFresh data.stripeSubscriptionId stamp r

/-- The event is held back from row `k`: it is in the ledger, the row is live anyway, the
object is not, its metadata is incomplete, or the guards of the upsert let the row be. -/
def HeldBack (w : World) (k : Id) (event : StripeEvent) (stripeSub : StripeSub) : Prop :=
  (w.processedWebhookEvents.get? event.id).isSome = true ∨
    ∀ r, w.subscriptions.get? k = some r → r.live = true ∨
      liveSubscriptionStatuses.contains (mapStripeStatus stripeSub.status) = false ∨
      ∀ owner planId, stripeSub.metadata.target = some (owner, planId) →
        w.replaces (subscriptionData owner planId stripeSub (eventStamp event.created w.now))
          (eventStamp event.created w.now) r = false

section Upserts

variable {w w' : World} {k : Id} {r : Subscription}

theorem subscriptionApply_row (hk : w.subscriptions.get? k = some r) (data : Subscription)
    (stamp : Time) :
    match (Stmt.subscriptionApply data stamp).exec w with
    | .ok w' => w'.subscriptions.get? k =
        some (if w.replaces data stamp r then { data with createdAt := r.createdAt } else r)
    | .error _ => w.replaces data stamp r = false := by
  cases hexec : (Stmt.subscriptionApply data stamp).exec w with
  | error e =>
    cases hr : w.replaces data stamp r with
    | false => rfl
    | true =>
      simp only [World.replaces, Bool.and_eq_true] at hr
      obtain ⟨⟨⟨⟨hplan, hxor⟩, huser⟩, horg⟩, _⟩ := hr
      simp only [Stmt.exec, hplan, hxor, huser, horg] at hexec
      split at hexec <;> simp at hexec
  | ok w' =>
    have hrow : w'.subscriptions.get? k =
      some (if subscriptionFresh data.stripeSubscriptionId stamp r then
        { data with createdAt := r.createdAt } else r) := by
      rw [(exec_effect hexec).subscriptions]
      simp only [Stmt.subscriptionsAfter, Table.get?_updateWhere, hk, Option.map_some]
      rfl
    by_cases hfresh : subscriptionFresh data.stripeSubscriptionId stamp r = true
    · have hany :
        w.subscriptions.any (fun _ r => r.stripeSubscriptionId == data.stripeSubscriptionId &&
          r.stripeEventCreatedAt.all (fun t => decide (t ≤ stamp))) = true :=
        Table.any_eq_true.mpr ⟨k, r, hk, hfresh⟩
      have hreplaces : w.replaces data stamp r = true := by
        simp only [Stmt.exec, hany, if_true] at hexec
        split at hexec
        · cases hexec
        · rename_i hxor
          split at hexec
          · cases hexec
          · rename_i hkeys
            simp only [Bool.or_eq_true, not_or, Bool.not_eq_true', Bool.not_eq_false] at hxor hkeys
            simp [World.replaces, hxor, hkeys.1.1, hkeys.1.2, hkeys.2, hfresh]
      simp only [hrow, hfresh, hreplaces]
    · have hreplaces : w.replaces data stamp r = false := by simp [World.replaces, hfresh]
      simp only [hrow, hfresh, hreplaces]

theorem upsertSubscription_row (hk : w.subscriptions.get? k = some r) (owner : Owner) (planId : Id)
    (stripeSub : StripeSub) (created : Option Nat) :
    (upsertSubscription owner planId stripeSub created).Ends Stmt.exec
      (fun _ w' => w'.subscriptions.get? k =
        some (if w.replaces (subscriptionData owner planId stripeSub (eventStamp created w.now))
            (eventStamp created w.now) r then
          { subscriptionData owner planId stripeSub (eventStamp created w.now) with createdAt :=
            r.createdAt }
        else r)) w := by
  unfold upsertSubscription
  simp only [Prog.bind_eq, ends_query_bind]
  generalize hdata : subscriptionData owner planId stripeSub (eventStamp created w.now) = data
  have hplan : data.planId = planId := by rw [← hdata]; rfl
  cases hfound : w.plans.get? planId with
  | none =>
    have hreplaces : w.replaces data (eventStamp created w.now) r = false := by
      simp [World.replaces, World.hasPlan, hplan, hfound]
    simp only [hreplaces]
    exact hk
  | some plan =>
    simp only [Option.isNone_some, Bool.false_eq_true, if_false, ends_date_bind, hdata,
      ends_send_bind]
    have happly := subscriptionApply_row hk data (eventStamp created w.now)
    cases hexec : (Stmt.subscriptionApply data (eventStamp created w.now)).exec w with
    | error e =>
      simp only [hexec] at happly ⊢
      simp only [happly]
      exact hk
    | ok w₁ =>
      simp only [hexec] at happly ⊢
      generalize (if w.replaces data (eventStamp created w.now) r = true then
        { data with createdAt := r.createdAt } else r) = row at happly ⊢
      split
      · exact happly
      · simp only [Prog.tryCatch_eq, Prog.ends_tryCatch, execute, Prog.ends_send]
        cases hcreate : (Stmt.subscriptionCreate data).exec w₁ with
        | ok w₂ =>
          simp only []
          rw [(exec_effect hcreate).subscriptions]
          exact Table.get?_insert_of_some happly
        | error e =>
          simp only []
          split <;> exact happly

def World.rowAfter (w : World) (event : StripeEvent) (stripeSub : StripeSub)
    (r : Subscription) : Subscription :=
  if (w.processedWebhookEvents.get? event.id).isSome then r
  else
    match stripeSub.metadata.target with
    | none => r
    | some (owner, planId) =>
      let data := subscriptionData owner planId stripeSub (eventStamp event.created w.now)
      if w.replaces data (eventStamp event.created w.now) r then
        { data with createdAt := r.createdAt } else r

theorem handleEvent_upserts {event : StripeEvent} {stripeSub : StripeSub}
    (hupserts : event.upserts = some stripeSub) :
    handleEvent event = handleSubscriptionUpdated stripeSub event.created := by
  unfold StripeEvent.upserts at hupserts
  unfold handleEvent
  split at hupserts
  · rename_i hbody
    cases hupserts
    rw [hbody]
  · rename_i hbody
    cases hupserts
    rw [hbody]
  · cases hupserts

theorem delivers_prog {env : Env} {request : BillingRequest} {event : StripeEvent}
    (hdelivers : request.delivers env = some event) :
    request.prog env = (processEvent event).bind fun _ => .ret () := by
  unfold BillingRequest.delivers at hdelivers
  split at hdelivers
  · rename_i rawBody signature
    split at hdelivers
    · rename_i hconf
      simp only [Bool.and_eq_true] at hconf
      cases hevent : env.constructEvent rawBody signature with
      | error message => simp [hevent, Except.toOption] at hdelivers
      | ok event' =>
        simp only [hevent, Except.toOption, Option.some.injEq] at hdelivers
        subst hdelivers
        simp [BillingRequest.prog, handleWebhook, hconf.1, hconf.2, hevent]
    · cases hdelivers
  · cases hdelivers

theorem delivery_row {env : Env} (hk : w.subscriptions.get? k = some r) {request : BillingRequest}
    {event : StripeEvent} {stripeSub : StripeSub} (hdelivers : request.delivers env = some event)
    (hupserts : event.upserts = some stripeSub) :
    (request.prog env).Ends Stmt.exec
      (fun _ w' => w'.subscriptions.get? k = some (w.rowAfter event stripeSub r)) w := by
  rw [delivers_prog hdelivers, processEvent]
  simp only [Prog.bind_eq, Prog.bind_assoc, ends_recordEvent_bind, World.rowAfter]
  by_cases hseen : (w.processedWebhookEvents.get? event.id).isSome = true
  · simp only [hseen, if_true]
    exact hk
  · simp only [hseen, Bool.false_eq_true, if_false, Bool.not_true, handleEvent_upserts hupserts,
      handleSubscriptionUpdated, Prog.bind_assoc]
    cases htarget : stripeSub.metadata.target with
    | none => exact hk
    | some target =>
      obtain ⟨owner, planId⟩ := target
      refine Ends.bind (upsertSubscription_row (w := { w with
        processedWebhookEvents := w.processedWebhookEvents.insert event.id
          { type := event.type, createdAt := w.now } }) hk owner planId stripeSub event.created)
        (fun _ w' hrow => ?_) (fun _ w' hrow => ?_)
      · exact hrow
      · exact hrow

theorem putsBack_iff {env : Env} {d : BillingEntry}
    (hserve : d = serve Stmt.exec (BillingRequest.prog env) d.pre d.req)
    {event : StripeEvent} {stripeSub : StripeSub} (hdelivers : d.req.delivers env = some event)
    (hupserts : event.upserts = some stripeSub) :
    d.PutsBack k ↔ ¬ HeldBack d.pre k event stripeSub := by
  have hpost : ∀ r, d.pre.subscriptions.get? k = some r →
      d.post.subscriptions.get? k = some (d.pre.rowAfter event stripeSub r) := by
    intro r hk
    rw [hserve]
    exact delivery_row hk hdelivers hupserts
  constructor
  · rintro ⟨r, r', hk, hdead, hk', hlive⟩ hheld
    rw [hpost r hk, Option.some.injEq] at hk'
    subst hk'
    unfold World.rowAfter at hlive
    rcases hheld with hseen | hheld
    · simp only [hseen, if_true, hdead] at hlive
      cases hlive
    · split at hlive
      · rw [hdead] at hlive; cases hlive
      · split at hlive
        · rw [hdead] at hlive; cases hlive
        · rename_i owner planId htarget
          simp only [] at hlive
          split at hlive
          · rename_i hreplaces
            rcases hheld r hk with hlive' | hstatus | hguard
            · rw [hdead] at hlive'; cases hlive'
            · rw [show Subscription.live _ = liveSubscriptionStatuses.contains
                (mapStripeStatus stripeSub.status)
                from rfl, hstatus] at hlive
              cases hlive
            · rw [hguard owner planId htarget] at hreplaces
              cases hreplaces
          · rw [hdead] at hlive; cases hlive
  · intro hheld
    simp only [HeldBack, not_or, not_forall, Bool.not_eq_true] at hheld
    obtain ⟨hnew, r, hk, hdead, hstatus, owner, planId, htarget, hreplaces⟩ := hheld
    refine ⟨r, _, hk, hdead, hpost r hk, ?_⟩
    simp only [Bool.not_eq_false] at hstatus hreplaces
    simp only [World.rowAfter, hnew, htarget, hreplaces, Bool.false_eq_true, if_false, if_true]
    exact hstatus

end Upserts

def World.SubscriptionsFresh (w : World) : Prop :=
  ∀ k r, w.subscriptions.get? k = some r → k < w.nonce

structure Onward (w w' : World) : Prop where
  nonce : w.nonce ≤ w'.nonce
  fresh : w.SubscriptionsFresh → w'.SubscriptionsFresh
  rows : ∀ k r', k < w.nonce → w'.subscriptions.get? k = some r' → ∃ r,
    w.subscriptions.get? k = some r ∧ r'.stripeSubscriptionId = r.stripeSubscriptionId ∧
    ∀ t, r.stripeEventCreatedAt = some t → ∃ t', r'.stripeEventCreatedAt = some t' ∧ t ≤ t'
  ledger : ∀ id, (w.processedWebhookEvents.get? id).isSome = true →
    (w'.processedWebhookEvents.get? id).isSome = true

section Order

variable {w w' : World}

theorem Onward.refl (w : World) : Onward w w :=
  ⟨Nat.le_refl _, id, fun _ r' _ hk => ⟨r', hk, rfl, fun t ht => ⟨t, ht, Nat.le_refl _⟩⟩,
    fun _ => id⟩

theorem Onward.trans {w₁ w₂ w₃ : World} (h₁ : Onward w₁ w₂) (h₂ : Onward w₂ w₃) : Onward w₁ w₃ := by
  refine ⟨Nat.le_trans h₁.nonce h₂.nonce, fun h => h₂.fresh (h₁.fresh h), fun k r₃ hlt hk => ?_,
    fun id h => h₂.ledger id (h₁.ledger id h)⟩
  obtain ⟨r₂, hk₂, hsid₂, hstamp₂⟩ := h₂.rows k r₃ (Nat.lt_of_lt_of_le hlt h₁.nonce) hk
  obtain ⟨r₁, hk₁, hsid₁, hstamp₁⟩ := h₁.rows k r₂ hlt hk₂
  refine ⟨r₁, hk₁, hsid₂.trans hsid₁, fun t ht => ?_⟩
  obtain ⟨t₂, ht₂, hle₂⟩ := hstamp₁ t ht
  obtain ⟨t₃, ht₃, hle₃⟩ := hstamp₂ t₂ ht₂
  exact ⟨t₃, ht₃, Nat.le_trans hle₂ hle₃⟩

theorem subscription_back {l : Stmt} (hl : l.stamped = true) (hexec : l.exec w = .ok w') {k : Id}
    {r' : Subscription} (hlt : k < w.nonce) (hk : w'.subscriptions.get? k = some r') :
    ∃ r, w.subscriptions.get? k = some r ∧ r'.stripeSubscriptionId = r.stripeSubscriptionId ∧
      ∀ t, r.stripeEventCreatedAt = some t → ∃ t', r'.stripeEventCreatedAt = some t' ∧ t ≤ t' := by
  have hkept : ∀ r, w.subscriptions.get? k = some r →
    r'.stripeSubscriptionId = r.stripeSubscriptionId →
      r'.stripeEventCreatedAt = r.stripeEventCreatedAt → ∃ r, w.subscriptions.get? k = some r ∧
        r'.stripeSubscriptionId = r.stripeSubscriptionId ∧
        ∀ t, r.stripeEventCreatedAt = some t → ∃ t', r'.stripeEventCreatedAt = some t' ∧ t ≤ t' :=
    fun r hr hsid hstamp => ⟨r, hr, hsid, fun t ht => ⟨t, hstamp.trans ht, Nat.le_refl _⟩⟩
  rw [(exec_effect hexec).subscriptions] at hk
  unfold Stmt.subscriptionsAfter at hk
  split at hk
  · rw [Table.get?_eraseWhere] at hk
    obtain ⟨r, hr, hrow⟩ := Option.bind_eq_some_iff.mp hk
    split at hrow
    · cases hrow
    · cases hrow
      exact hkept r' hr rfl rfl
  · rcases Table.get?_insert_cases hk with hold | ⟨rfl, _⟩
    · exact hkept r' hold rfl rfl
    · exact absurd hlt (Nat.lt_irrefl _)
  · rename_i row stamp
    rw [Table.get?_updateWhere, Option.map_eq_some_iff] at hk
    obtain ⟨r, hr, hrow⟩ := hk
    split at hrow
    · rename_i hfresh
      simp only [Bool.and_eq_true, beq_iff_eq] at hfresh
      subst hrow
      refine ⟨r, hr, hfresh.1.symm, fun t ht => ⟨stamp, by simpa [Stmt.stamped] using hl, ?_⟩⟩
      simpa [ht] using hfresh.2
    · subst hrow
      exact hkept r hr rfl rfl
  · rw [Table.get?_updateWhere, Option.map_eq_some_iff] at hk
    obtain ⟨r, hr, hrow⟩ := hk
    split at hrow
    · subst hrow
      exact hkept r hr rfl rfl
    · subst hrow
      exact hkept r hr rfl rfl
  · rw [Table.get?_updateWhere, Option.map_eq_some_iff] at hk
    obtain ⟨r, hr, hrow⟩ := hk
    split at hrow
    · subst hrow
      exact hkept r hr rfl rfl
    · subst hrow
      exact hkept r hr rfl rfl
  · exact hkept r' hk rfl rfl

theorem World.SubscriptionsFresh.exec {l : Stmt} (hw : w.SubscriptionsFresh)
    (hexec : l.exec w = .ok w') :
    w'.SubscriptionsFresh := by
  intro k r' hk
  have heff := exec_effect hexec
  by_cases hlt : k < w.nonce
  · exact Nat.lt_of_lt_of_le hlt heff.nonce_le
  · have hnone : w.subscriptions.get? k = none := by
      cases hr : w.subscriptions.get? k with
      | none => rfl
      | some r => exact absurd (hw k r hr) hlt
    rw [heff.subscriptions] at hk
    unfold Stmt.subscriptionsAfter at hk
    split at hk
    case h_2 row =>
      rcases Table.get?_insert_cases hk with hold | ⟨rfl, _⟩
      · rw [hnone] at hold
        cases hold
      · rw [heff.nonce]
        exact Nat.lt_succ_self _
    all_goals simp [hnone] at hk

theorem Onward.exec {l : Stmt} (hl : l.stamped = true) (hexec : l.exec w = .ok w') :
    Onward w w' := by
  refine ⟨(exec_effect hexec).nonce_le, fun hw => hw.exec hexec,
    fun k r' hlt hk => subscription_back hl hexec hlt hk, fun id hid => ?_⟩
  rw [(exec_effect hexec).processedWebhookEvents]
  unfold Stmt.processedWebhookEventsAfter
  split
  · obtain ⟨row, hrow⟩ := Option.isSome_iff_exists.mp hid
    rw [Table.get?_insert_of_some hrow]
    rfl
  · exact hid

theorem BillingRequest.sends_stamped (env : Env) (request : BillingRequest) :
    (request.prog env).Sends (fun l => l.stamped = true) := by
  have hcancel : ∀ l : Stmt, l.ofCancellation = true → l.stamped = true := by
    intro l hl
    cases l <;> first | rfl | cases hl
  cases request with
  | cancelSubscription first userId =>
    exact .bind ((cancelOwned_sends _ _).mono hcancel) fun _ => .ret
  | cancelOrgSubscription first organizationId =>
    exact .bind ((cancelOwned_sends _ _).mono hcancel) fun _ => .ret
  | deleteOrganization orgId =>
    exact .bind ((deleteOrganization_sends orgId).mono hcancel) fun _ => .ret
  | webhook rawBody signature =>
    refine .bind ((handleWebhook_sends rawBody signature).mono fun l hl => ?_) fun _ => .ret
    rcases hl with hl | ⟨id, type, rfl⟩
    · cases l <;> first | rfl | exact hl
    · rfl
  | other p stamped => exact stamped

theorem BillingRequest.onward (env : Env) (request : BillingRequest) (w : World) :
    Onward w ((request.prog env).run Stmt.exec w).2 :=
  (request.sends_stamped env).run .refl (fun _ _ _ => .trans) (fun _ _ _ => .exec) w

theorem BillingRun.onward {env : Env} {h : List BillingEntry} (hrun : BillingRun env w h w') :
    Onward w w' :=
  Served.related .refl (fun _ _ _ => .trans) (fun s r _ => r.onward env s) hrun

end Order

section Cancellations

variable {env : Env} {w w' : World} {h : List BillingEntry} {k : Id}

def Outdated (w : World) (k : Id) (event : StripeEvent) : Prop :=
  (w.processedWebhookEvents.get? event.id).isSome = true ∨
    ∃ r t created, w.subscriptions.get? k = some r ∧ r.stripeEventCreatedAt = some t ∧
      event.created = some created ∧ created ≠ 0 ∧ created * 1000 < t

theorem Outdated.heldBack (hw : w.SubscriptionsFresh) (honward : Onward w w') {event : StripeEvent}
    {stripeSub : StripeSub} (h : Outdated w k event) : HeldBack w' k event stripeSub := by
  rcases h with hseen | ⟨r, t, created, hk, ht, hcreated, hpositive, hlt⟩
  · exact .inl (honward.ledger _ hseen)
  · refine .inr fun r' hk' => .inr (.inr fun owner planId _ => ?_)
    obtain ⟨r₀, hk₀, _, hstamp⟩ := honward.rows k r' (hw k r hk) hk'
    rw [hk] at hk₀
    cases hk₀
    obtain ⟨t', ht', hle⟩ := hstamp t ht
    have hstamp : eventStamp event.created w'.now = created * 1000 := by
      simp [eventStamp, dateOfSeconds, hcreated, hpositive, Option.filter]
    have hnewer : ¬ t' ≤ created * 1000 := Nat.not_le.mpr (Nat.lt_of_lt_of_le hlt hle)
    simp [World.replaces, subscriptionFresh, hstamp, ht', hnewer]

/-- A row that is live again was put back by one of the requests. -/
theorem exists_putsBack (hw : w.SubscriptionsFresh) {r : Subscription}
    (hk : w.subscriptions.get? k = some r) (hdead : r.live = false) (hrun : BillingRun env w h w')
    {r' : Subscription} (hk' : w'.subscriptions.get? k = some r') (hlive : r'.live = true) :
    ∃ d ∈ h, d.PutsBack k := by
  induction hrun generalizing r' with
  | refl =>
    rw [hk] at hk'
    cases hk'
    rw [hdead] at hlive
    cases hlive
  | @snoc h w₁ w₂ d hbefore hserved ih =>
    cases hserved with
    | @mk request hallowed =>
      have honward := request.onward env w₁
      have hlt := Nat.lt_of_lt_of_le (hw k r hk) (BillingRun.onward hbefore).nonce
      obtain ⟨r₁, hk₁, _⟩ := honward.rows k r' hlt hk'
      by_cases hlive₁ : r₁.live = true
      · obtain ⟨d, hd, hputs⟩ := ih hk₁ hlive₁
        exact ⟨d, List.mem_cons_of_mem _ hd, hputs⟩
      · exact ⟨_, .head _, r₁, r', hk₁, by simpa using hlive₁, hk', hlive⟩

/-- No created or updated event from before `instant` puts row `k` back. -/
def StaysCancelled (env : Env) (instant : Time) (k : Id) (h : List BillingEntry) : Prop :=
  ∀ d ∈ h, ∀ event stripeSub, d.Late env instant event stripeSub → ¬ d.PutsBack k

def LateHeldBack (env : Env) (instant : Time) (k : Id) (h : List BillingEntry) : Prop :=
  ∀ d ∈ h, ∀ event stripeSub, d.Late env instant event stripeSub → HeldBack d.pre k event stripeSub

end Cancellations

/-- After a cancellation no event from before it puts the row back exactly when the guards
hold every such event back. They hold back what was delivered before the cancellation or is
older than the row was then, and if they hold back all, only later events revive the row. -/
theorem cancellation_outlasts_iff (env : Env) {w₀ w₁ w₂ w₃ : World} {h₁ h₂ : List BillingEntry}
    {c : BillingEntry} {k : Id} (hids : w₀.SubscriptionsFresh) (hbefore : BillingRun env w₀ h₁ w₁)
    (hserved : Served Stmt.exec (BillingRequest.prog env) (fun _ _ => True) w₁ c w₂)
    (hcancels : c.Cancels k) (hafter : BillingRun env w₂ h₂ w₃) :
    (StaysCancelled env w₂.now k h₂ ↔ LateHeldBack env w₂.now k h₂) ∧
      (∀ d ∈ h₂, ∀ event stripeSub, d.Late env w₂.now event stripeSub → Outdated w₂ k event →
        HeldBack d.pre k event stripeSub) ∧
      (LateHeldBack env w₂.now k h₂ → ∀ r, w₃.subscriptions.get? k = some r → r.live = true →
        ∃ d ∈ h₂, d.PutsBack k ∧ ∀ event stripeSub, ¬ d.Late env w₂.now event stripeSub) := by
  have hfresh : w₂.SubscriptionsFresh :=
    (BillingRun.onward (.snoc hbefore hserved)).fresh hids
  have hiff : ∀ d ∈ h₂, ∀ event stripeSub, d.Late env w₂.now event stripeSub →
      (d.PutsBack k ↔ ¬ HeldBack d.pre k event stripeSub) := by
    intro d hd event stripeSub ⟨hdelivers, hupserts, _⟩
    exact putsBack_iff (Served.mem hafter hd).1 hdelivers hupserts
  refine ⟨⟨fun hstays d hd event stripeSub hlate => ?_,
    fun hheld d hd event stripeSub hlate hputs => ?_⟩, fun d hd event stripeSub _ houtdated => ?_,
    fun hheld r hk hlive => ?_⟩
  · by_contra hnot
    exact hstays d hd event stripeSub hlate ((hiff d hd event stripeSub hlate).mpr hnot)
  · exact (hiff d hd event stripeSub hlate).mp hputs (hheld d hd event stripeSub hlate)
  · obtain ⟨_, _, h₃, hupto⟩ := Served.mem hafter hd
    exact houtdated.heldBack hfresh (BillingRun.onward hupto)
  · cases hserved with
    | mk _ =>
      obtain ⟨_, r', _, _, hk', hcanceled⟩ := hcancels.marked
      have hdead : r'.live = false := by
        simp [Subscription.live, hcanceled, liveSubscriptionStatuses]
      obtain ⟨d, hd, hputs⟩ := exists_putsBack hfresh hk' hdead hafter hk hlive
      exact ⟨d, hd, hputs, fun event stripeSub hlate =>
        (hiff d hd event stripeSub hlate).mp hputs (hheld d hd event stripeSub hlate)⟩

section Sample

def changedEvent : StripeEvent :=
  { id := 14, created := some 2, body := .subscriptionUpdated (sampleSub .active) }

def cancellationEnv : Env :=
  { sampleEnv with
    constructEvent := fun rawBody _ =>
      if rawBody = "created" then .ok createdEvent.event
      else if rawBody = "changed" then .ok changedEvent
      else .error "no signatures match" }

def creationDelivery : BillingRequest := .webhook "created" (some "")
def changeDelivery : BillingRequest := .webhook "changed" (some "")
def waiting (d : Time) : BillingRequest := .other (execute (.tick d)) (.send rfl)

def stripeHasSubscription : World :=
  { subscribableWorld with
    now := 1000, stripe := (∅ : Table StripeSub).insert 7 (sampleSub .active) }

def subscribed : List BillingEntry × World :=
  serveAll Stmt.exec (BillingRequest.prog cancellationEnv) [creationDelivery, waiting 2000]
    ([], stripeHasSubscription)

def cancellation : BillingEntry :=
  serve Stmt.exec (BillingRequest.prog cancellationEnv) subscribed.2
    (.cancelSubscription .tableOrder 1)

def afterCancellation (requests : List BillingRequest) : List BillingEntry × World :=
  serveAll Stmt.exec (BillingRequest.prog cancellationEnv) requests ([], cancellation.post)

theorem subscribed_run :
    BillingRun cancellationEnv stripeHasSubscription subscribed.1 subscribed.2 :=
  serveAll_steps _ (fun _ _ _ => trivial) [] .refl

theorem cancellation_cancels : cancellation.Cancels 20 :=
  ⟨rfl, rfl, ⟨_, _, rfl, by decide, rfl, rfl⟩, fun r hr => by cases hr; exact ⟨_, rfl, rfl⟩⟩

theorem cancellation_outlasts_iff_redelivered :
    StaysCancelled cancellationEnv cancellation.post.now 20
    (afterCancellation [creationDelivery]).1 := by
  have hids : stripeHasSubscription.SubscriptionsFresh := fun _ _ hk => (by cases hk)
  have h := cancellation_outlasts_iff cancellationEnv hids subscribed_run (.mk trivial)
    cancellation_cancels
    (serveAll_steps [creationDelivery] (fun _ _ _ => trivial) [] .refl)
  refine h.1.mpr fun d hd event stripeSub hlate => h.2.1 d hd event stripeSub hlate ?_
  obtain rfl := List.mem_singleton.mp hd
  obtain ⟨hdelivers, _⟩ := hlate
  cases hdelivers
  exact .inl rfl

/-- The change is delivered for the first time after the cancellation. Its stamp is newer
than the row's, and the row is ACTIVE again. -/
theorem late_change_revives :
    BillingRun cancellationEnv stripeHasSubscription subscribed.1 subscribed.2 ∧
      cancellation.Cancels 20 ∧
      BillingRun cancellationEnv cancellation.post (afterCancellation [changeDelivery]).1
        (afterCancellation [changeDelivery]).2 ∧
      ¬ StaysCancelled cancellationEnv cancellation.post.now 20
      (afterCancellation [changeDelivery]).1 := by
  refine ⟨subscribed_run, cancellation_cancels, serveAll_steps _ (fun _ _ _ => trivial) [] .refl,
    fun h => ?_⟩
  exact h _ (.head _) changedEvent (sampleSub .active) ⟨rfl, rfl, 2, rfl, by decide⟩
    ⟨_, _, rfl, rfl, rfl, rfl⟩

end Sample

end SaasBackend
