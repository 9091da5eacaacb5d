import SaasBackend.BillingCancellation

/-! In which order the states of one subscription reach its row. A created or updated event
carries the state of its own instant; a completed checkout fetches the state of the instant
of its delivery, and stores it under the older stamp of its event. -/

set_option autoImplicit false

namespace SaasBackend
open Keyed Handler

def StripeEvent.stamp (event : StripeEvent) : Time := event.created.getD 0 * 1000

/-- A subscription as Stripe has it at every instant, and the events about it. -/
structure StripeHistory (sid : Id) where
  state : Time → StripeSub
  events : StripeEvent → Prop
  id : ∀ t, (state t).id = sid
  stamped : ∀ e, events e → ∃ created, e.created = some created ∧ created ≠ 0
  distinct : ∀ e e', events e → events e' → e.created = e'.created → e = e'
  body : ∀ e, events e → e.upserts = some (state e.stamp) ∨
    ∃ session, e.body = .checkoutSessionCompleted session ∧ session.subscription = some sid

section Runs

variable (env : Env) {sid : Id} (H : StripeHistory sid)

/-- The store at a later instant, with the subscription as Stripe has it then. -/
def World.at (w : World) (t : Time) : World :=
  { w with now := t, stripe := (w.stripe.erase sid).insert sid (H.state t) }

inductive Delivered : World → BillingEntry → World → Prop where
  | mk {w : World} {t : Time} {request : BillingRequest} {event : StripeEvent} :
      w.now ≤ t → request.delivers env = some event → H.events event → event.stamp ≤ t →
      Delivered w (serve Stmt.exec (BillingRequest.prog env) (w.at H t) request)
        (serve Stmt.exec (BillingRequest.prog env) (w.at H t) request).post

def BillingEntry.Writes (d : BillingEntry) (sid : Id) : Prop :=
  ∃ k r, d.post.subscriptions.get? k = some r ∧ r.stripeSubscriptionId = sid ∧
    d.pre.subscriptions.get? k ≠ some r

/-- The instant whose state the handler of an event stores. -/
def StripeEvent.asOf (event : StripeEvent) (now : Time) : Time :=
  if event.upserts.isSome then event.stamp else now

def BillingEntry.asOf (d : BillingEntry) : Time :=
  match d.req.delivers env with
  | some event => event.asOf d.pre.now
  | none => d.pre.now

inductive LastWrite (sid : Id) : List BillingEntry → BillingEntry → Prop where
  | here {d : BillingEntry} {h : List BillingEntry} : d.Writes sid → LastWrite sid (d :: h) d
  | before {d d₀ : BillingEntry} {h : List BillingEntry} :
      ¬ d.Writes sid → LastWrite sid h d₀ → LastWrite sid (d :: h) d₀

/-- Every write stores a state of the same or a later instant than the one it replaces. -/
def Forward (sid : Id) : List BillingEntry → Prop
  | [] => True
  | d :: h => Forward sid h ∧ (d.Writes sid → ∀ d₀, LastWrite sid h d₀ → d₀.asOf env ≤ d.asOf env)

/-- The owner and plan under which an event is stored. -/
def StripeEvent.target (event : StripeEvent) : Option (Owner × Id) :=
  match event.body with
  | .checkoutSessionCompleted session => session.metadata.target
  | .subscriptionCreated stripeSub | .subscriptionUpdated stripeSub => stripeSub.metadata.target
  | _ => none

/-- An event that is new to the ledger, and a row of the subscription that is not newer. -/
def Overwrites (w : World) (event : StripeEvent) (stripeSub : StripeSub) : Prop :=
  (w.processedWebhookEvents.get? event.id).isSome = false ∧ ∃ owner planId k r,
    event.target = some (owner, planId) ∧ w.subscriptions.get? k = some r ∧
    w.replaces (subscriptionData owner planId stripeSub event.stamp) event.stamp r = true

/-- No created or updated event overwrites what a checkout fetched after that event was
created. -/
def NotOvertaken (sid : Id) : List BillingEntry → Prop
  | [] => True
  | d :: h => NotOvertaken sid h ∧ ∀ event stripeSub d₀ event₀, d.req.delivers env = some event →
      event.upserts = some stripeSub → LastWrite sid h d₀ → d₀.req.delivers env = some event₀ →
      event₀.upserts = none → Overwrites d.pre event stripeSub → d₀.pre.now ≤ event.stamp

end Runs

structure UpsertEffect (w : World) (data : Subscription) (stamp : Time) (w' : World) : Prop where
  kept : ∀ k r, w.subscriptions.get? k = some r → w'.subscriptions.get? k =
    some (if w.replaces data stamp r then { data with createdAt := r.createdAt } else r)
  new : ∀ k r', w.subscriptions.get? k = none → w'.subscriptions.get? k = some r' →
    r' = { data with createdAt := w.now } ∧
      ∀ k r, w.subscriptions.get? k = some r → r.stripeSubscriptionId ≠ data.stripeSubscriptionId

section Upserts

variable {w : World}

theorem upsertSubscription_new {k : Id} (hk : w.subscriptions.get? k = none) (owner : Owner)
    (planId : Id) (stripeSub : StripeSub) (created : Option Nat) :
    (upsertSubscription owner planId stripeSub created).Ends Stmt.exec
      (fun _ w' => ∀ r', w'.subscriptions.get? k = some r' →
        r' = { subscriptionData owner planId stripeSub (eventStamp created w.now) with createdAt :=
          w.now } ∧
          ∀ k r, w.subscriptions.get? k = some r → r.stripeSubscriptionId ≠ stripeSub.id) w := by
  have hnone : ∀ {t : Table Subscription} {r' : Subscription} {P : Prop}, t.get? k = none →
      t.get? k = some r' → P := by
    intro t r' P hnone hsome
    rw [hnone] at hsome
    cases hsome
  unfold upsertSubscription
  simp only [Prog.bind_eq, ends_query_bind]
  generalize hdata : subscriptionData owner planId stripeSub (eventStamp created w.now) = data
  have hsid : data.stripeSubscriptionId = stripeSub.id := by rw [← hdata]; rfl
  split
  · exact fun r' => hnone hk
  · simp only [ends_date_bind, hdata, ends_send_bind]
    cases hexec : (Stmt.subscriptionApply data (eventStamp created w.now)).exec w with
    | error e => exact fun r' => hnone hk
    | ok w₁ =>
      have hk₁ : w₁.subscriptions.get? k = none := by
        rw [(exec_effect hexec).subscriptions]
        simp [Stmt.subscriptionsAfter, hk]
      simp only []
      by_cases hany : w.subscriptions.any
          (fun _ r => subscriptionFresh stripeSub.id (eventStamp created w.now) r) = true
      · rw [if_pos hany]
        exact fun r' => hnone hk₁
      · rw [if_neg hany]
        have hsame : w₁ = w := by
          have hnot : ¬ w.subscriptions.any
            (fun _ r => r.stripeSubscriptionId == data.stripeSubscriptionId &&
              r.stripeEventCreatedAt.all (fun t => decide (t ≤ eventStamp created w.now))) =
              true := by
            rw [hsid]
            exact hany
          simp only [Stmt.exec, hnot] at hexec
          cases hexec
          rfl
        subst hsame
        simp only [Prog.tryCatch_eq, Prog.ends_tryCatch, execute, Prog.ends_send]
        cases hcreate : (Stmt.subscriptionCreate data).exec w₁ with
        | ok w₂ =>
          intro r' hr'
          rw [(exec_effect hcreate).subscriptions] at hr'
          rcases Table.get?_insert_cases hr' with hold | ⟨_, rfl⟩
          · exact hnone hk hold
          · refine ⟨rfl, fun k₀ r₀ hk₀ hsame => ?_⟩
            simp only [Stmt.exec] at hcreate
            split at hcreate
            · cases hcreate
            · rename_i hfree
              exact hfree (Table.any_eq_true.mpr ⟨k₀, r₀, hk₀, by simp [hsid, hsame]⟩)
        | error e =>
          simp only []
          split <;> exact fun r' => hnone hk

theorem upsertSubscription_effect (owner : Owner) (planId : Id) (stripeSub : StripeSub)
    (created : Option Nat) :
    (upsertSubscription owner planId stripeSub created).Ends Stmt.exec
      (fun _ w' => UpsertEffect w
        (subscriptionData owner planId stripeSub (eventStamp created w.now))
        (eventStamp created w.now) w') w :=
  ⟨fun _ _ hk => upsertSubscription_row hk owner planId stripeSub created,
    fun _ r' hk => upsertSubscription_new hk owner planId stripeSub created r'⟩

/-- A row that is not what it was is the new data, in a row of its own or in the place of a row
that was not newer. -/
theorem UpsertEffect.changed {w' : World} {data : Subscription} {stamp : Time}
    (h : UpsertEffect w data stamp w') {k : Id} {r' : Subscription}
    (hk : w'.subscriptions.get? k = some r') (hdiffers : w.subscriptions.get? k ≠ some r') :
    r' = { data with createdAt := r'.createdAt } ∧
      ((∀ k r, w.subscriptions.get? k = some r →
        r.stripeSubscriptionId ≠ data.stripeSubscriptionId) ∨
        ∃ r, w.subscriptions.get? k = some r ∧ w.replaces data stamp r = true) := by
  cases hold : w.subscriptions.get? k with
  | none =>
    obtain ⟨hrow, hfree⟩ := h.new k r' hold hk
    exact ⟨by rw [hrow], .inl hfree⟩
  | some r =>
    have hrow := h.kept k r hold
    rw [hk, Option.some.injEq] at hrow
    split at hrow
    · rename_i hreplaces
      exact ⟨by rw [hrow], .inr ⟨r, rfl, hreplaces⟩⟩
    · exact absurd (hrow ▸ hold) hdiffers

end Upserts

section Deliveries

variable {env : Env} {sid : Id} {H : StripeHistory sid} {w w' : World} {event : StripeEvent}

theorem StripeHistory.eventStamp_eq (he : H.events event) (now : Time) :
    eventStamp event.created now = event.stamp := by
  obtain ⟨created, hcreated, hpositive⟩ := H.stamped event he
  simp [eventStamp, dateOfSeconds, StripeEvent.stamp, hcreated, hpositive, Option.filter]

/-- Whatever kind of event it is, its handler upserts the state of one instant. -/
theorem StripeHistory.handleEvent_eq (he : H.events event) {post : Except Err Unit → World → Prop}
    (hstripe : w.stripe.get? sid = some (H.state w.now)) :
    (handleEvent event).Ends Stmt.exec post w ↔
      match event.target with
      | none => post (.ok ()) w
      | some (owner, planId) => (upsertSubscription owner planId (H.state (event.asOf w.now))
          event.created).Ends Stmt.exec post w := by
  rcases H.body event he with hupserts | ⟨session, hbody, hsubscription⟩
  · have htarget : event.target = (H.state event.stamp).metadata.target := by
      unfold StripeEvent.upserts at hupserts
      unfold StripeEvent.target
      split at hupserts
      · rename_i hbody
        cases hupserts
        rw [hbody]
      · rename_i hbody
        cases hupserts
        rw [hbody]
      · cases hupserts
    rw [handleEvent_upserts hupserts, handleSubscriptionUpdated, htarget,
      StripeEvent.asOf, hupserts]
    cases (H.state event.stamp).metadata.target with
    | none => rfl
    | some target => rfl
  · simp only [handleEvent, hbody, handleCheckoutCompleted, hsubscription, StripeEvent.target,
      StripeEvent.asOf, StripeEvent.upserts, Option.isSome_none, Bool.false_eq_true, if_false]
    cases session.metadata.target with
    | none => rfl
    | some target =>
      simp only [retrieveSubscription, Prog.bind_eq, Prog.bind_assoc, ends_query_bind, hstripe]
      rfl

theorem World.at_stripe (w : World) (t : Time) : (w.at H t).stripe.get? sid = some (H.state t) :=
  Table.get?_insert_self _ (by simp)

structure DeliveryEffect (env : Env) (H : StripeHistory sid) (w : World) (d : BillingEntry)
    (w' : World) (event : StripeEvent) : Prop where
  delivers : d.req.delivers env = some event
  known : H.events event
  notBefore : event.stamp ≤ d.pre.now
  later : w.now ≤ d.pre.now
  subscriptions : d.pre.subscriptions = w.subscriptions
  post : d.post = w'
  now : w'.now = d.pre.now
  quiet : (d.pre.processedWebhookEvents.get? event.id).isSome = true ∨ event.target = none →
    w'.subscriptions = d.pre.subscriptions
  upsert : ∀ owner planId, (d.pre.processedWebhookEvents.get? event.id).isSome = false →
    event.target = some (owner, planId) → UpsertEffect d.pre
      (subscriptionData owner planId (H.state (event.asOf d.pre.now)) event.stamp) event.stamp w'

theorem delivery_now {request : BillingRequest} (hdelivers : request.delivers env = some event)
    (w : World) :
    ((request.prog env).run Stmt.exec w).2.now = w.now := by
  have hsends : (request.prog env).Sends (fun l => l.ofWebhook = true ∨ ∃ id type,
      l = .webhookEventCreate id type) := by
    unfold BillingRequest.delivers at hdelivers
    split at hdelivers
    · exact .bind (handleWebhook_sends _ _) fun _ => .ret
    · cases hdelivers
  refine hsends.run (R := fun w w' => w'.now = w.now) (fun _ => rfl)
    (fun _ _ _ h₁ h₂ => by rw [h₂, h₁]) (fun l w w' hl hexec => ?_) w
  rw [(exec_effect hexec).now]
  rcases hl with hl | ⟨id, type, rfl⟩
  · cases l <;> first | rfl | cases hl
  · rfl

theorem delivery_ends {post : World → Prop} {request : BillingRequest}
    (hdelivers : request.delivers env = some event) :
    (request.prog env).Ends Stmt.exec (fun _ => post) w ↔
      if (w.processedWebhookEvents.get? event.id).isSome then post w
      else (handleEvent event).Ends Stmt.exec (fun _ => post) { w with
        processedWebhookEvents := w.processedWebhookEvents.insert event.id
          { type := event.type, createdAt := w.now } } := by
  rw [delivers_prog hdelivers, processEvent]
  simp only [Prog.bind_eq, Prog.bind_assoc, ends_recordEvent_bind]
  split
  · rfl
  · simp only [Bool.not_true, Bool.false_eq_true, if_false, Prog.bind_assoc]
    rw [Prog.ends_bind]
    unfold Prog.Ends
    cases ((handleEvent event).run Stmt.exec { w with
      processedWebhookEvents := w.processedWebhookEvents.insert event.id
        { type := event.type, createdAt := w.now } }).1 <;> rfl

theorem Delivered.effect {d : BillingEntry} (h : Delivered env H w d w') :
    ∃ event, DeliveryEffect env H w d w' event := by
  obtain ⟨hle, hdelivers, he, hstamp⟩ := h
  rename_i t request event
  refine ⟨event, hdelivers, he, hstamp, hle, rfl, rfl, delivery_now hdelivers _, fun hquiet => ?_,
    fun owner planId hnew htarget => ?_⟩
  · show (request.prog env).Ends Stmt.exec (fun _ w' => w'.subscriptions = (w.at H t).subscriptions)
      (w.at H t)
    refine (delivery_ends hdelivers).mpr ?_
    split
    · rfl
    · rename_i hnew
      rcases hquiet with hseen | htarget
      · exact absurd hseen hnew
      · rw [H.handleEvent_eq he (by exact w.at_stripe t), htarget]
  · show (request.prog env).Ends Stmt.exec (fun _ w' => UpsertEffect (w.at H t)
      (subscriptionData owner planId (H.state (event.asOf t)) event.stamp) event.stamp w')
      (w.at H t)
    refine (delivery_ends hdelivers).mpr ?_
    rw [if_neg (by rw [show ((w.at H t).processedWebhookEvents.get? event.id).isSome =
      false from hnew]; simp), H.handleEvent_eq he (by exact w.at_stripe t), htarget]
    have heffect := upsertSubscription_effect (w := { w.at H t with
      processedWebhookEvents := (w.at H t).processedWebhookEvents.insert event.id
        { type := event.type, createdAt := (w.at H t).now } }) owner planId (H.state (event.asOf t))
        event.created
    rw [H.eventStamp_eq he] at heffect
    exact heffect.weaken fun _ w' h => ⟨h.kept, h.new⟩

theorem DeliveryEffect.writes {d : BillingEntry} (h : DeliveryEffect env H w d w' event)
    (hwrites : d.Writes sid) :
    (d.pre.processedWebhookEvents.get? event.id).isSome = false ∧ ∃ owner planId k r',
      event.target = some (owner, planId) ∧ w'.subscriptions.get? k = some r' ∧
      r'.stripeSubscriptionId = sid ∧ w.subscriptions.get? k ≠ some r' ∧ UpsertEffect d.pre
        (subscriptionData owner planId (H.state (event.asOf d.pre.now)) event.stamp) event.stamp
          w' := by
  obtain ⟨k, r', hk, hsid, hdiffers⟩ := hwrites
  rw [h.post] at hk
  rw [h.subscriptions] at hdiffers
  have hchanged : w'.subscriptions ≠ d.pre.subscriptions := by
    intro hsame
    rw [hsame, h.subscriptions] at hk
    exact hdiffers hk
  cases hseen : (d.pre.processedWebhookEvents.get? event.id).isSome with
  | true => exact absurd (h.quiet (.inl hseen)) hchanged
  | false =>
    cases htarget : event.target with
    | none => exact absurd (h.quiet (.inr htarget)) hchanged
    | some target =>
      exact ⟨rfl, target.1, target.2, k, r', rfl, hk, hsid, hdiffers, h.upsert _ _ hseen htarget⟩

theorem DeliveryEffect.present {d : BillingEntry} (h : DeliveryEffect env H w d w' event) {k : Id}
    {r : Subscription} (hk : w.subscriptions.get? k = some r)
    (hsid : r.stripeSubscriptionId = sid) :
    ∃ k' r', w'.subscriptions.get? k' = some r' ∧ r'.stripeSubscriptionId = sid := by
  rw [← h.subscriptions] at hk
  by_cases hquiet : (d.pre.processedWebhookEvents.get? event.id).isSome = true ∨ event.target = none
  · exact ⟨k, r, (h.quiet hquiet).symm ▸ hk, hsid⟩
  · simp only [not_or, Bool.not_eq_true] at hquiet
    obtain ⟨target, htarget⟩ := Option.ne_none_iff_exists'.mp hquiet.2
    refine ⟨k, _, (h.upsert target.1 target.2 hquiet.1 htarget).kept k r hk, ?_⟩
    split
    · exact H.id _
    · exact hsid

theorem replaces_sid {data r : Subscription} {stamp : Time} (h : w.replaces data stamp r = true) :
    r.stripeSubscriptionId = data.stripeSubscriptionId ∧
      r.stripeEventCreatedAt.all (fun t => decide (t ≤ stamp)) = true := by
  simp only [World.replaces, subscriptionFresh, Bool.and_eq_true, beq_iff_eq] at h
  exact h.2

theorem replaces_congr {data r r' : Subscription} {stamp : Time}
    (hsid : r.stripeSubscriptionId = r'.stripeSubscriptionId)
    (hstamp : r.stripeEventCreatedAt = r'.stripeEventCreatedAt) :
    w.replaces data stamp r = w.replaces data stamp r' := by
  simp only [World.replaces, subscriptionFresh, hsid, hstamp]

theorem LastWrite.unique {h : List BillingEntry} {d d' : BillingEntry} (h₁ : LastWrite sid h d)
    (h₂ : LastWrite sid h d') : d = d' := by
  induction h₁ with
  | here hwrites =>
    cases h₂ with
    | here => rfl
    | before hnot _ => exact absurd hwrites hnot
  | before hnot _ ih =>
    cases h₂ with
    | here hwrites => exact absurd hwrites hnot
    | before _ hbefore => exact ih hbefore

/-- The rows of the subscription bear the stamp of the delivery that wrote them last. -/
structure Dated (env : Env) (H : StripeHistory sid) (h : List BillingEntry) (w : World) : Prop where
  writer : ∀ d₀, LastWrite sid h d₀ → d₀.asOf env ≤ w.now ∧ ∃ event₀,
    d₀.req.delivers env = some event₀ ∧
    H.events event₀ ∧ (∃ k r, w.subscriptions.get? k = some r ∧ r.stripeSubscriptionId = sid) ∧
    ∀ k r, w.subscriptions.get? k = some r → r.stripeSubscriptionId = sid →
      r.stripeEventCreatedAt = some event₀.stamp
  source : ∀ k r, w.subscriptions.get? k = some r → r.stripeSubscriptionId = sid →
    ∃ d₀, LastWrite sid h d₀

theorem StripeEvent.asOf_change {stripeSub : StripeSub} (h : event.upserts = some stripeSub)
    (now : Time) :
    event.asOf now = event.stamp := by simp [StripeEvent.asOf, h]

theorem StripeEvent.asOf_checkout (h : event.upserts = none) (now : Time) :
    event.asOf now = now := by
  simp [StripeEvent.asOf, h]

theorem BillingEntry.asOf_eq {d : BillingEntry} (h : d.req.delivers env = some event) :
    d.asOf env = event.asOf d.pre.now := by simp [BillingEntry.asOf, h]

theorem StripeHistory.state_eq (he : H.events event) {stripeSub : StripeSub}
    (hupserts : event.upserts = some stripeSub) (now : Time) :
    H.state (event.asOf now) = stripeSub := by
  rw [StripeEvent.asOf_change hupserts]
  rcases H.body event he with hbody | ⟨session, hbody, _⟩
  · exact Option.some.inj (hbody.symm.trans hupserts)
  · simp [StripeEvent.upserts, hbody] at hupserts

theorem StripeHistory.created_inj {e e' : StripeEvent} (he : H.events e) (he' : H.events e')
    (h : e.stamp = e'.stamp) : e = e' := by
  obtain ⟨c, hc, _⟩ := H.stamped e he
  obtain ⟨c', hc', _⟩ := H.stamped e' he'
  have hsame : c * 1000 = c' * 1000 := by simpa [StripeEvent.stamp, hc, hc'] using h
  refine H.distinct e e' he he' ?_
  rw [hc, hc']
  congr 1
  omega

theorem DeliveryEffect.asOf_le {d : BillingEntry} (h : DeliveryEffect env H w d w' event) :
    d.asOf env ≤ d.pre.now := by
  rw [BillingEntry.asOf_eq h.delivers, StripeEvent.asOf]
  split
  · exact h.notBefore
  · exact Nat.le_refl _

/-- Once a delivery has written a row of the subscription, all of them bear its stamp: two rows
of one stamp are replaced together. -/
theorem Dated.stamped {h : List BillingEntry} {d : BillingEntry} (hw : Dated env H h w)
    (hd : DeliveryEffect env H w d w' event) (hwrites : d.Writes sid) {k : Id} {r' : Subscription}
    (hk : w'.subscriptions.get? k = some r') (hsid : r'.stripeSubscriptionId = sid) :
    r'.stripeEventCreatedAt = some event.stamp := by
  obtain ⟨_, owner, planId, k₁, r₁, _, hk₁, hsid₁, hdiffers, hupsert⟩ := hd.writes hwrites
  rw [← hd.subscriptions] at hdiffers
  by_cases hold : d.pre.subscriptions.get? k = some r'
  · -- the row that was written was there before, bore the same stamp, and was replaced
    obtain ⟨d₀, hlast⟩ := hw.source k r' (hd.subscriptions ▸ hold) hsid
    obtain ⟨_, event₀, _, _, _, hstamps⟩ := hw.writer d₀ hlast
    rcases (hupsert.changed hk₁ hdiffers).2 with hfree | ⟨r₀, hold₁, hreplaces⟩
    · exact absurd (hsid.trans (H.id _).symm) (hfree k r' hold)
    · have hsid₀ : r₀.stripeSubscriptionId = sid := (replaces_sid hreplaces).1.trans (H.id _)
      have hstamp₀ := hstamps k₁ r₀ (hd.subscriptions ▸ hold₁) hsid₀
      have hstamp := hstamps k r' (hd.subscriptions ▸ hold) hsid
      rw [replaces_congr (hsid₀.trans hsid.symm) (hstamp₀.trans hstamp.symm)] at hreplaces
      have hrow := hupsert.kept k r' hold
      rw [hk, if_pos hreplaces, Option.some.injEq] at hrow
      rw [hrow]
      rfl
  · rw [(hupsert.changed hk hold).1]
    rfl

theorem DeliveryEffect.unwritten {d : BillingEntry} (hd : DeliveryEffect env H w d w' event)
    (hwrites : ¬ d.Writes sid) {k : Id} {r' : Subscription} (hk : w'.subscriptions.get? k = some r')
    (hsid : r'.stripeSubscriptionId = sid) : w.subscriptions.get? k = some r' := by
  by_contra hdiffers
  exact hwrites ⟨k, r', hd.post ▸ hk, hsid, hd.subscriptions ▸ hdiffers⟩

theorem Dated.step {h : List BillingEntry} {d : BillingEntry} (hw : Dated env H h w)
    (hd : DeliveryEffect env H w d w' event) : Dated env H (d :: h) w' := by
  have hnow : w.now ≤ w'.now := hd.now ▸ hd.later
  by_cases hwrites : d.Writes sid
  · refine ⟨fun d₀ hlast => ?_, fun _ _ _ _ => ⟨d, .here hwrites⟩⟩
    obtain rfl := hlast.unique (.here hwrites)
    obtain ⟨_, _, _, k₁, r₁, _, hk₁, hsid₁, _⟩ := hd.writes hwrites
    exact ⟨hd.now ▸ hd.asOf_le, event, hd.delivers, hd.known, ⟨k₁, r₁, hk₁, hsid₁⟩,
      fun _ _ hk hsid => hw.stamped hd hwrites hk hsid⟩
  · refine ⟨fun d₀ hlast => ?_, fun k r' hk hsid => ?_⟩
    · cases hlast with
      | here hw' => exact absurd hw' hwrites
      | before _ hbefore =>
        obtain ⟨hle, event₀, hdelivers₀, hknown₀, ⟨k, r, hk, hsid⟩, hstamps⟩ := hw.writer d₀ hbefore
        exact ⟨Nat.le_trans hle hnow, event₀, hdelivers₀, hknown₀, hd.present hk hsid,
          fun k r' hk' hsid' => hstamps k r' (hd.unwritten hwrites hk' hsid') hsid'⟩
    · obtain ⟨d₀, hlast⟩ := hw.source k r' (hd.unwritten hwrites hk hsid) hsid
      exact ⟨d₀, .before hwrites hlast⟩

/-- An event that overwrites a row writes it: the stamps of two different events differ. -/
theorem Dated.overwrites_writes {h : List BillingEntry} {d d₀ : BillingEntry}
    {stripeSub : StripeSub} {event₀ : StripeEvent} (hw : Dated env H h w)
    (hd : DeliveryEffect env H w d w' event) (hupserts : event.upserts = some stripeSub)
    (hlast : LastWrite sid h d₀) (hdelivers₀ : d₀.req.delivers env = some event₀)
    (hcheckout : event₀.upserts = none) (hover : Overwrites d.pre event stripeSub) :
    d.Writes sid := by
  obtain ⟨hnew, owner, planId, k, r, htarget, hk, hreplaces⟩ := hover
  obtain ⟨_, event₁, hdelivers₁, hknown₁, _, hstamps⟩ := hw.writer d₀ hlast
  obtain rfl : event₀ = event₁ := Option.some.inj (hdelivers₀.symm.trans hdelivers₁)
  have hstripe := H.state_eq hd.known hupserts d.pre.now
  have hsid : r.stripeSubscriptionId = sid := by
    rw [(replaces_sid hreplaces).1, ← hstripe]
    exact H.id _
  have hrow := (hd.upsert owner planId hnew htarget).kept k r hk
  rw [hstripe, if_pos hreplaces] at hrow
  refine ⟨k, _, hd.post ▸ hrow, hstripe ▸ H.id _, fun hsame => ?_⟩
  rw [hk] at hsame
  have hstamp := hstamps k r (hd.subscriptions ▸ hk) hsid
  rw [Option.some.inj hsame] at hstamp
  rw [H.created_inj hd.known hknown₁ (Option.some.inj hstamp), hcheckout] at hupserts
  cases hupserts

/-- A created or updated event that writes a row has overwritten one, whose stamp it reaches. -/
theorem Dated.writes_overwrites {h : List BillingEntry} {d d₀ : BillingEntry}
    {stripeSub : StripeSub} {event₀ : StripeEvent} (hw : Dated env H h w)
    (hd : DeliveryEffect env H w d w' event) (hupserts : event.upserts = some stripeSub)
    (hwrites : d.Writes sid) (hlast : LastWrite sid h d₀)
    (hdelivers₀ : d₀.req.delivers env = some event₀) :
    Overwrites d.pre event stripeSub ∧ event₀.stamp ≤ event.stamp := by
  obtain ⟨hnew, owner, planId, k, r', htarget, hk, hsid', hdiffers, hupsert⟩ := hd.writes hwrites
  obtain ⟨_, event₁, hdelivers₁, _, ⟨k₀, r₀, hk₀, hsid₀⟩, hstamps⟩ := hw.writer d₀ hlast
  obtain rfl : event₀ = event₁ := Option.some.inj (hdelivers₀.symm.trans hdelivers₁)
  rw [← hd.subscriptions] at hdiffers hk₀
  rcases (hupsert.changed hk hdiffers).2 with hfree | ⟨r, hold, hreplaces⟩
  · exact absurd (hsid₀.trans (H.id _).symm) (hfree k₀ r₀ hk₀)
  · have hsid : r.stripeSubscriptionId = sid := (replaces_sid hreplaces).1.trans (H.id _)
    have hle := (replaces_sid hreplaces).2
    rw [hstamps k r (hd.subscriptions ▸ hold) hsid] at hle
    rw [H.state_eq hd.known hupserts] at hreplaces
    exact ⟨⟨hnew, owner, planId, k, r, htarget, hold, hreplaces⟩, by simpa using hle⟩

theorem Dated.forward_step {h : List BillingEntry} {d : BillingEntry} (hw : Dated env H h w)
    (hd : DeliveryEffect env H w d w' event) :
    (d.Writes sid → ∀ d₀, LastWrite sid h d₀ → d₀.asOf env ≤ d.asOf env) ↔
      ∀ event stripeSub d₀ event₀, d.req.delivers env = some event →
        event.upserts = some stripeSub →
        LastWrite sid h d₀ → d₀.req.delivers env = some event₀ → event₀.upserts = none →
        Overwrites d.pre event stripeSub → d₀.pre.now ≤ event.stamp := by
  constructor
  · intro hforward event' stripeSub d₀ event₀ hdelivers hupserts hlast hdelivers₀ hcheckout hover
    obtain rfl : event = event' := Option.some.inj (hd.delivers.symm.trans hdelivers)
    have hle := hforward
      (hw.overwrites_writes hd hupserts hlast hdelivers₀ hcheckout hover) d₀ hlast
    rw [BillingEntry.asOf_eq hdelivers₀, StripeEvent.asOf_checkout hcheckout,
      BillingEntry.asOf_eq hd.delivers, StripeEvent.asOf_change hupserts] at hle
    exact hle
  · intro hcond hwrites d₀ hlast
    obtain ⟨hpast, event₀, hdelivers₀, _⟩ := hw.writer d₀ hlast
    rw [BillingEntry.asOf_eq hd.delivers]
    cases hupserts : event.upserts with
    | none =>
      rw [StripeEvent.asOf_checkout hupserts]
      exact Nat.le_trans hpast hd.later
    | some stripeSub =>
      obtain ⟨hover, hle⟩ := hw.writes_overwrites hd hupserts hwrites hlast hdelivers₀
      rw [StripeEvent.asOf_change hupserts, BillingEntry.asOf_eq hdelivers₀]
      cases hcheckout : event₀.upserts with
      | none =>
        rw [StripeEvent.asOf_checkout hcheckout]
        exact hcond event stripeSub d₀ event₀ hd.delivers hupserts hlast hdelivers₀ hcheckout hover
      | some stripeSub₀ =>
        rw [StripeEvent.asOf_change hcheckout]
        exact hle

end Deliveries

/-- Each row a delivery wrote shows the subscription as Stripe had it at the instant. -/
def StoresState {sid : Id} (env : Env) (H : StripeHistory sid) (d : BillingEntry) : Prop :=
  ∀ k r, d.post.subscriptions.get? k = some r → r.stripeSubscriptionId = sid →
    d.pre.subscriptions.get? k ≠ some r → ∃ owner planId event, d.req.delivers env = some event ∧
      r = { subscriptionData owner planId (H.state (d.asOf env)) event.stamp with
        createdAt := r.createdAt }

theorem DeliveryEffect.storesState {env : Env} {sid : Id} {H : StripeHistory sid} {w w' : World}
    {event : StripeEvent} {d : BillingEntry} (h : DeliveryEffect env H w d w' event) :
    StoresState env H d := by
  intro k r hk hsid hdiffers
  obtain ⟨_, owner, planId, _, _, _, _, _, _, hupsert⟩ := h.writes ⟨k, r, hk, hsid, hdiffers⟩
  refine ⟨owner, planId, event, h.delivers, ?_⟩
  rw [BillingEntry.asOf_eq h.delivers]
  rw [h.post] at hk
  exact (hupsert.changed hk hdiffers).1

/-- A subscription that has no row yet. Every write stores what Stripe held at its instant, and
the instants never go back exactly when no created or updated event overwrites what a checkout
fetched after that event was created. -/
theorem writes_forward_iff (env : Env) {sid : Id} (H : StripeHistory sid) {w₀ w : World}
    {h : List BillingEntry}
    (hnone : ∀ k r, w₀.subscriptions.get? k = some r → r.stripeSubscriptionId ≠ sid)
    (hrun : Steps (Delivered env H) w₀ h w) :
    (∀ d ∈ h, StoresState env H d) ∧ (Forward env sid h ↔ NotOvertaken env sid h) := by
  suffices hsuff : Dated env H h w ∧ (∀ d ∈ h, StoresState env H d) ∧
      (Forward env sid h ↔ NotOvertaken env sid h) from hsuff.2
  induction hrun with
  | refl => exact ⟨⟨nofun, fun k r hk hr => absurd hr (hnone k r hk)⟩, by simp, Iff.rfl⟩
  | @snoc h w₁ w₂ d _ hserved ih =>
    obtain ⟨hdated, hstores, hiff⟩ := ih
    obtain ⟨event, hd⟩ := hserved.effect
    refine ⟨hdated.step hd, fun d' hd' => ?_, and_congr hiff (hdated.forward_step hd)⟩
    rcases List.mem_cons.mp hd' with rfl | hold
    · exact hd.storesState
    · exact hstores d' hold

section Sample

def completedCheckout : StripeEvent :=
  { id := 15, created := some 1
    body := .checkoutSessionCompleted
      { id := 16, subscription := some 7, metadata := { userId := some 1, planId := some 2 } } }

def pastDueLater : StripeHistory 7 where
  state t := if t < 3000 then sampleSub .active else sampleSub .pastDue
  events e := e = completedCheckout ∨ e = changedEvent
  id t := by split <;> rfl
  stamped e he := by
    rcases he with rfl | rfl
    · exact ⟨1, rfl, by decide⟩
    · exact ⟨2, rfl, by decide⟩
  distinct e e' he he' h := by
    rcases he with rfl | rfl <;> rcases he' with rfl | rfl
    · rfl
    · exact absurd h (by decide)
    · exact absurd h (by decide)
    · rfl
  body e he := by
    rcases he with rfl | rfl
    · exact .inr ⟨_, rfl, rfl⟩
    · exact .inl (by simp [StripeEvent.upserts, StripeEvent.stamp, changedEvent])

def overtakingEnv : Env :=
  { sampleEnv with
    constructEvent :=
      fun rawBody _ => if rawBody = "checkout" then .ok completedCheckout else .ok changedEvent }

def checkoutAt (t : Time) : BillingEntry :=
  serve Stmt.exec (BillingRequest.prog overtakingEnv) (subscribableWorld.at pastDueLater t)
    (.webhook "checkout" (some ""))

def changeAfter (t : Time) : BillingEntry :=
  serve Stmt.exec (BillingRequest.prog overtakingEnv) ((checkoutAt t).post.at pastDueLater 5000)
    (.webhook "changed" (some ""))

theorem checkoutAt_run {t : Time} (hstamp : 1000 ≤ t) (hbefore : (checkoutAt t).post.now ≤ 5000) :
    Steps (Delivered overtakingEnv pastDueLater) subscribableWorld [changeAfter t, checkoutAt t]
      (changeAfter t).post := by
  have hcheckout : (BillingRequest.webhook "checkout" (some "")).delivers overtakingEnv =
    some completedCheckout := rfl
  have hchange : (BillingRequest.webhook "changed" (some "")).delivers overtakingEnv =
    some changedEvent := rfl
  exact .snoc (.snoc .refl (.mk (Nat.zero_le _) hcheckout (.inl rfl) hstamp))
    (.mk hbefore hchange (.inr rfl) (by decide))

theorem writes_forward_iff_prompt :
    Forward overtakingEnv 7 [changeAfter 1500, checkoutAt 1500] := by
  have hnone : ∀ k r, subscribableWorld.subscriptions.get? k = some r →
      r.stripeSubscriptionId ≠ 7 :=
    fun _ _ hk => (by cases hk)
  refine (writes_forward_iff overtakingEnv pastDueLater hnone
    (checkoutAt_run (by decide) (by decide))).2.mpr ⟨⟨trivial, ?_⟩, ?_⟩
  · intro _ _ _ _ _ _ hlast
    cases hlast
  · intro event stripeSub d₀ event₀ hdelivers _ hlast _ _ _
    cases hdelivers
    cases hlast with
    | here => decide
    | before _ hbefore => cases hbefore

/-- The checkout is delivered late and stores PAST_DUE; then the change arrives, whose event is
newer than the checkout's, and takes the row back to ACTIVE. -/
theorem change_overtakes_checkout :
    Steps (Delivered overtakingEnv pastDueLater) subscribableWorld
    [changeAfter 4000, checkoutAt 4000]
        (changeAfter 4000).post ∧
      ¬ Forward overtakingEnv 7 [changeAfter 4000, checkoutAt 4000] := by
  refine ⟨checkoutAt_run (by decide) (by decide), fun ⟨_, hforward⟩ => ?_⟩
  have hle := hforward ⟨20, _, rfl, rfl, by decide⟩ _ (.here ⟨20, _, rfl, rfl, by decide⟩)
  exact absurd hle (by decide)

end Sample

end SaasBackend
