import SaasBackend.AccountService
import SaasBackend.BillingService
import SaasBackend.NewestWins
import SaasBackend.StatementEffects

/-! Where a subscription row ends up after any deliveries of its webhook events. The
handlers refine a stamped register: created and updated events are writes, a deletion
is a closing, which no guard holds back. -/

set_option autoImplicit false

namespace SaasBackend
open Keyed Handler NewestWins

/-- A created, updated or deleted event with a timestamp and complete metadata. -/
structure SubscriptionEvent where
  event : StripeEvent
  stripeSub : StripeSub
  owner : Owner
  planId : Id
  created : Nat
  body : event.body = .subscriptionCreated stripeSub ∨ event.body = .subscriptionUpdated stripeSub ∨
    event.body = .subscriptionDeleted stripeSub
  stamped : event.created = some created
  positive : created ≠ 0
  target : stripeSub.metadata.target = some (owner, planId)

namespace SubscriptionEvent

theorem ext_event {e e' : SubscriptionEvent} (h : e.event = e'.event) : e = e' := by
  obtain ⟨event, stripeSub, owner, planId, created, body, stamped, positive, target⟩ := e
  obtain ⟨event', stripeSub', owner', planId', created', body', stamped', positive', target'⟩ := e'
  cases h
  have hsub : stripeSub = stripeSub' := by
    rcases body with h | h | h <;> rcases body' with h' | h' | h' <;> rw [h] at h' <;>
      cases h' <;> rfl
  cases hsub
  rw [target] at target'
  rw [stamped] at stamped'
  cases target'
  cases stamped'
  rfl

def deletes (e : SubscriptionEvent) : Bool :=
  match e.event.body with
  | .subscriptionDeleted _ => true
  | _ => false

def stamp (e : SubscriptionEvent) : Time := e.created * 1000

def data (e : SubscriptionEvent) : Subscription :=
  subscriptionData e.owner e.planId e.stripeSub e.stamp

def change (e : SubscriptionEvent) (instant : Time) : Change Subscription Time :=
  if e.deletes then .close instant else .write e.stamp e.data

def Admissible (e : SubscriptionEvent) (w : World) : Prop :=
  w.hasPlan e.planId = true ∧ World.ownerXor e.data = true ∧ e.owner.userId.all w.hasUser = true ∧
    e.owner.organizationId.all w.hasOrganization = true

theorem handleEvent_eq (e : SubscriptionEvent) :
    handleEvent e.event =
      if e.deletes then handleSubscriptionDeleted e.stripeSub
      else upsertSubscription e.owner e.planId e.stripeSub e.event.created := by
  rcases e.body with h | h | h
  · simp [handleEvent, handleSubscriptionUpdated, deletes, h, e.target]
  · simp [handleEvent, handleSubscriptionUpdated, deletes, h, e.target]
  · simp [handleEvent, deletes, h]

theorem eventStamp_eq (e : SubscriptionEvent) (now : Time) :
    eventStamp e.event.created now = e.stamp := by
  simp [eventStamp, dateOfSeconds, e.stamped, e.positive, stamp, Option.filter]

end SubscriptionEvent

def rowOf (c : Cell Subscription Time) (createdAt : Time) : Subscription :=
  match c.closed with
  | none => { c.data with stripeEventCreatedAt := some c.stamp, createdAt }
  | some t =>
    { c.data with
      stripeEventCreatedAt := some c.stamp, createdAt, status := .canceled, canceledAt := some t }

@[simp] theorem rowOf_stamp (c : Cell Subscription Time) (t : Time) :
    (rowOf c t).stripeEventCreatedAt = some c.stamp := by
  unfold rowOf
  split <;> rfl

/-- A row shows a cell. A row that never met an event has no stamp and counts as 0. -/
structure Shows (c : Cell Subscription Time) (r : Subscription) : Prop where
  row : r = { rowOf c r.createdAt with stripeEventCreatedAt := r.stripeEventCreatedAt }
  stamp : r.stripeEventCreatedAt.getD 0 = c.stamp

theorem Shows.rowOf (c : Cell Subscription Time) (t : Time) : Shows c (rowOf c t) := by
  refine ⟨?_, by simp⟩
  unfold SaasBackend.rowOf
  split <;> rfl

theorem Shows.fresh {c : Cell Subscription Time} {r : Subscription} {sid : Id} (h : Shows c r)
    (hid : r.stripeSubscriptionId = sid) (stamp : Time) :
    subscriptionFresh sid stamp r = decide (c.stamp ≤ stamp) := by
  rw [subscriptionFresh, hid, ← h.stamp]
  cases r.stripeEventCreatedAt <;> simp

theorem Shows.close {c : Cell Subscription Time} {r : Subscription} (h : Shows c r)
    (instant : Time) :
    Shows { c with closed := some instant }
    { r with status := .canceled, canceledAt := some instant } := by
  refine ⟨?_, h.stamp⟩
  rw [h.row]
  unfold SaasBackend.rowOf
  split <;> rfl

/-- The rows of one subscription show what the register holds; the tables its foreign
keys point into are those of `w₀`. -/
structure Tracks (w₀ : World) (sid : Id) (cell : Option (Cell Subscription Time)) (w : World) :
    Prop where
  row : ∀ k r, w.subscriptions.get? k = some r → r.stripeSubscriptionId = sid →
    ∃ c, cell = some c ∧ Shows c r
  present : ∀ c, cell = some c → c.data.stripeSubscriptionId = sid ∧
    ∃ k r, w.subscriptions.get? k = some r ∧ r.stripeSubscriptionId = sid
  fresh : ∀ k r, w.subscriptions.get? k = some r → k < w.nonce
  plans : w.plans = w₀.plans
  users : w.users = w₀.users
  organizations : w.organizations = w₀.organizations

section Handlers

variable {w₀ w : World} {sid : Id} {cell : Option (Cell Subscription Time)} {e : SubscriptionEvent}

theorem Tracks.anyFresh (ht : Tracks w₀ sid cell w) (stamp : Time) :
    w.subscriptions.any (fun _ r => subscriptionFresh sid stamp r) = true ↔
      ∃ c, cell = some c ∧ c.stamp ≤ stamp := by
  rw [Table.any_eq_true]
  constructor
  · rintro ⟨k, r, hk, hfresh⟩
    have hid : r.stripeSubscriptionId = sid := by
      simp only [subscriptionFresh, Bool.and_eq_true, beq_iff_eq] at hfresh
      exact hfresh.1
    obtain ⟨c, hc, hr⟩ := ht.row k r hk hid
    exact ⟨c, hc, by simpa [hr.fresh hid] using hfresh⟩
  · rintro ⟨c, hc, hle⟩
    obtain ⟨_, k, r, hk, hid⟩ := ht.present c hc
    obtain ⟨c', hc', hr⟩ := ht.row k r hk hid
    rw [hc] at hc'
    cases hc'
    exact ⟨k, r, hk, by simpa [hr.fresh hid] using hle⟩

theorem Tracks.admissible (ht : Tracks w₀ sid cell w) (he : e.Admissible w₀) : e.Admissible w := by
  have hplan : w.hasPlan = w₀.hasPlan := by funext id; simp [World.hasPlan, ht.plans]
  have huser : w.hasUser = w₀.hasUser := by funext id; simp [World.hasUser, ht.users]
  have horg : w.hasOrganization = w₀.hasOrganization := by
    funext id
    simp [World.hasOrganization, ht.organizations]
  unfold SubscriptionEvent.Admissible
  rw [hplan, huser, horg]
  exact he

theorem exec_subscriptionApply (he : e.Admissible w) (hid : e.stripeSub.id = sid) :
    (Stmt.subscriptionApply e.data e.stamp).exec w =
      .ok (if w.subscriptions.any (fun _ r => subscriptionFresh sid e.stamp r) then
        { w with
          subscriptions := w.subscriptions.updateWhere (fun _ r => subscriptionFresh sid e.stamp r)
            (fun r => { e.data with createdAt := r.createdAt }) }
      else w) := by
  obtain ⟨hplan, hxor, huser, horg⟩ := he
  have hsid : e.data.stripeSubscriptionId = sid := hid
  simp only [Stmt.exec, hxor, show w.hasPlan e.data.planId = true from hplan,
    show e.data.userId.all w.hasUser = true from huser,
    show e.data.organizationId.all w.hasOrganization = true from horg, hsid, subscriptionFresh]
  split <;> rfl

theorem exec_subscriptionCreate (he : e.Admissible w) (hid : e.stripeSub.id = sid) :
    (Stmt.subscriptionCreate e.data).exec w =
      if w.subscriptions.any (fun _ r => sid == r.stripeSubscriptionId) then .error (.prisma .P2002)
      else .ok { w with
        subscriptions := w.subscriptions.insert w.nonce { e.data with createdAt := w.now }
        nonce := w.nonce + 1 } := by
  obtain ⟨hplan, hxor, huser, horg⟩ := he
  have hsid : e.data.stripeSubscriptionId = sid := hid
  simp [Stmt.exec, hxor, show w.hasPlan e.data.planId = true from hplan,
    show e.data.userId.all w.hasUser = true from huser,
    show e.data.organizationId.all w.hasOrganization = true from horg, hsid]

theorem Tracks.upsert (ht : Tracks w₀ sid cell w) (he : e.Admissible w₀)
    (hid : e.stripeSub.id = sid) :
    (upsertSubscription e.owner e.planId e.stripeSub e.event.created).Ends Stmt.exec
      (fun r w' => r = .ok () ∧ Tracks w₀ sid (step cell (.write e.stamp e.data)) w' ∧
        w'.processedWebhookEvents = w.processedWebhookEvents ∧ w'.now = w.now) w := by
  have hadm := ht.admissible he
  obtain ⟨p, hp⟩ := Option.isSome_iff_exists.mp hadm.1
  unfold upsertSubscription
  simp only [Prog.bind_eq, ends_query_bind, hp, Option.isNone_some, Bool.false_eq_true, if_false,
    ends_date_bind, e.eventStamp_eq, ends_send_bind]
  rw [show subscriptionData e.owner e.planId e.stripeSub e.stamp = e.data from rfl,
    exec_subscriptionApply hadm hid, hid]
  simp only []
  by_cases hany : w.subscriptions.any (fun _ r => subscriptionFresh sid e.stamp r) = true
  · obtain ⟨c, rfl, hle⟩ := (ht.anyFresh _).mp hany
    simp only [hany, if_true, step, if_pos hle, Prog.pure_eq, Prog.ends_ret]
    refine ⟨trivial, ⟨fun k r hk hr => ⟨_, rfl, ?_⟩, fun c' hc' => ?_, fun k r hk => ?_,
      ht.plans, ht.users, ht.organizations⟩, trivial, trivial⟩
    · rw [Table.get?_updateWhere, Option.map_eq_some_iff] at hk
      obtain ⟨r₀, hr₀, hrow⟩ := hk
      split at hrow
      · rw [← hrow]
        exact .rowOf { stamp := e.stamp, data := e.data } r₀.createdAt
      · rename_i hstale
        subst hrow
        obtain ⟨c', hc', hrow⟩ := ht.row k r₀ hr₀ hr
        cases hc'
        exact absurd (by simpa [hrow.fresh hr] using hle) hstale
    · cases hc'
      obtain ⟨_, k, r, hk, hr⟩ := ht.present c rfl
      refine ⟨hid, k,
        if subscriptionFresh sid e.stamp r then { e.data with createdAt := r.createdAt } else r,
        by simp [hk], ?_⟩
      split
      · exact hid
      · exact hr
    · rw [Table.get?_updateWhere, Option.map_eq_some_iff] at hk
      obtain ⟨r₀, hr₀, _⟩ := hk
      exact ht.fresh k r₀ hr₀
  · simp only [hany, Bool.false_eq_true, if_false, Prog.tryCatch_eq, Prog.ends_tryCatch, execute,
      Prog.ends_send]
    rw [exec_subscriptionCreate hadm hid]
    cases cell with
    | none =>
      have hnone : w.subscriptions.any (fun _ r => sid == r.stripeSubscriptionId) = false := by
        refine Table.any_eq_false.mpr fun k r hk => ?_
        simp only [beq_eq_false_iff_ne]
        intro heq
        obtain ⟨c, hc, _⟩ := ht.row k r hk heq.symm
        cases hc
      have hfree : w.subscriptions.get? w.nonce = none :=
        Table.get?_of_bound ht.fresh (Nat.le_refl _)
      simp only [hnone, Bool.false_eq_true, if_false]
      refine ⟨trivial, ⟨fun k r hk hr => ⟨_, rfl, ?_⟩, fun c hc => ?_, fun k r hk => ?_, ht.plans,
        ht.users, ht.organizations⟩, trivial, trivial⟩
      · rcases Table.get?_insert_cases hk with hold | ⟨_, rfl⟩
        · obtain ⟨c, hc, _⟩ := ht.row k r hold hr
          cases hc
        · exact .rowOf { stamp := e.stamp, data := e.data } w.now
      · cases hc
        exact ⟨hid, _, _, Table.get?_insert_self _ hfree, hid⟩
      · rcases Table.get?_insert_cases hk with hold | ⟨rfl, _⟩
        · exact Nat.lt_succ_of_lt (ht.fresh k r hold)
        · exact Nat.lt_succ_self _
    | some c =>
      have hstale : ¬ c.stamp ≤ e.stamp := fun hle => hany ((ht.anyFresh _).mpr ⟨c, rfl, hle⟩)
      have hexists : w.subscriptions.any (fun _ r => sid == r.stripeSubscriptionId) = true := by
        obtain ⟨_, k, r, hk, hr⟩ := ht.present c rfl
        exact Table.any_eq_true.mpr ⟨k, r, hk, by simp [hr]⟩
      simp only [hexists, if_true, step, if_neg hstale]
      exact ⟨rfl, ht, rfl, rfl⟩

theorem Tracks.delete (ht : Tracks w₀ sid cell w) (hid : e.stripeSub.id = sid) :
    (handleSubscriptionDeleted e.stripeSub).Ends Stmt.exec
      (fun r w' => r = .ok () ∧ Tracks w₀ sid (step cell (.close w.now)) w' ∧
        w'.processedWebhookEvents = w.processedWebhookEvents ∧ w'.now = w.now) w := by
  unfold handleSubscriptionDeleted
  simp only [Prog.bind_eq, ends_query_bind, ends_date_bind, execute, Prog.ends_send, Stmt.exec, hid]
  refine ⟨trivial, ⟨fun k r hk hr => ?_, fun c' hc' => ?_, fun k r hk => ?_, ht.plans, ht.users,
    ht.organizations⟩, trivial, trivial⟩
  · rw [Table.get?_updateWhere, Option.map_eq_some_iff] at hk
    obtain ⟨r₀, hr₀, hrow⟩ := hk
    split at hrow
    · rename_i hmatch
      obtain ⟨c, rfl, hc⟩ := ht.row k r₀ hr₀ (by simpa using hmatch)
      exact ⟨_, rfl, hrow ▸ hc.close w.now⟩
    · rename_i hmatch
      subst hrow
      exact absurd (by simpa using hr) hmatch
  · cases cell with
    | none => cases hc'
    | some c =>
      cases hc'
      obtain ⟨hsid, k, r, hk, hr⟩ := ht.present c rfl
      exact ⟨hsid, k, { r with
        status := .canceled, canceledAt := some w.now }, by simp [hk, hr], hr⟩
  · rw [Table.get?_updateWhere, Option.map_eq_some_iff] at hk
    obtain ⟨r₀, hr₀, _⟩ := hk
    exact ht.fresh k r₀ hr₀

theorem Tracks.handle (ht : Tracks w₀ sid cell w) (he : e.Admissible w₀)
    (hid : e.stripeSub.id = sid) :
    (handleEvent e.event).Ends Stmt.exec
      (fun r w' => r = .ok () ∧ Tracks w₀ sid (step cell (e.change w.now)) w' ∧
        w'.processedWebhookEvents = w.processedWebhookEvents ∧ w'.now = w.now) w := by
  rw [e.handleEvent_eq]
  unfold SubscriptionEvent.change
  split
  · exact ht.delete hid
  · exact ht.upsert he hid

end Handlers

/-- A signed delivery of an event, `wait` after the delivery before. -/
structure Delivery (env : Env) where
  wait : Time
  rawBody : String
  signature : String
  event : SubscriptionEvent
  signed : env.constructEvent rawBody signature = .ok event.event

abbrev Delivery.id {env : Env} (d : Delivery env) : Id := d.event.event.id

def deliver {env : Env} (w : World) (d : Delivery env) : World :=
  ((handleWebhook env d.rawBody (some d.signature)).runs { w with now := w.now + d.wait }).2

def deliverAll {env : Env} (w : World) (ds : List (Delivery env)) : World := ds.foldl deliver w

def firstDeliveries {env : Env} : List Id → Time → List (Delivery env) →
    List (SubscriptionEvent × Time)
  | _, _, [] => []
  | seen, now, d :: ds =>
    if d.id ∈ seen then firstDeliveries seen (now + d.wait) ds
    else (d.event, now + d.wait) :: firstDeliveries (d.id :: seen) (now + d.wait) ds

def changesOf (firsts : List (SubscriptionEvent × Time)) : List (Change Subscription Time) :=
  firsts.map (fun p => p.1.change p.2)

section Deliveries

variable {env : Env} {w₀ w : World} {sid : Id} {cell : Option (Cell Subscription Time)}

theorem Tracks.deliver (hconf : env.stripeConfigured = true ∧ env.webhookSecretConfigured = true)
    (ht : Tracks w₀ sid cell w) (d : Delivery env) (he : d.event.Admissible w₀)
    (hid : d.event.stripeSub.id = sid) :
    (SaasBackend.deliver w d).now = w.now + d.wait ∧
      if (w.processedWebhookEvents.get? d.id).isSome then
        Tracks w₀ sid cell (SaasBackend.deliver w d) ∧
          (SaasBackend.deliver w d).processedWebhookEvents = w.processedWebhookEvents
      else
        Tracks w₀ sid (step cell (d.event.change (w.now + d.wait))) (SaasBackend.deliver w d) ∧
          ∃ row, (SaasBackend.deliver w d).processedWebhookEvents =
            w.processedWebhookEvents.insert d.id row := by
  have hwaited : Tracks w₀ sid cell { w with now := w.now + d.wait } :=
    ⟨ht.row, ht.present, ht.fresh, ht.plans, ht.users, ht.organizations⟩
  suffices h : (handleWebhook env d.rawBody (some d.signature)).Ends Stmt.exec
      (fun _ w' => w'.now = w.now + d.wait ∧
        if (w.processedWebhookEvents.get? d.id).isSome then
          Tracks w₀ sid cell w' ∧ w'.processedWebhookEvents = w.processedWebhookEvents
        else
          Tracks w₀ sid (step cell (d.event.change (w.now + d.wait))) w' ∧
            ∃ row, w'.processedWebhookEvents = w.processedWebhookEvents.insert d.id row)
      { w with now := w.now + d.wait } from h
  simp only [handleWebhook, hconf.1, hconf.2, Bool.not_true, Bool.false_eq_true, if_false, d.signed,
    processEvent, Prog.bind_eq, ends_recordEvent_bind, Bool.not_false, if_true]
  by_cases hseen : (w.processedWebhookEvents.get? d.id).isSome = true
  · rw [if_pos hseen]
    simp only [hseen, if_true]
    exact ⟨rfl, hwaited, rfl⟩
  · rw [if_neg hseen]
    simp only [hseen, Bool.false_eq_true, if_false]
    have hrecorded : Tracks w₀ sid cell
        { w with
          now := w.now + d.wait
          processedWebhookEvents := w.processedWebhookEvents.insert d.id
            { type := d.event.event.type, createdAt := w.now + d.wait } } :=
      ⟨ht.row, ht.present, ht.fresh, ht.plans, ht.users, ht.organizations⟩
    refine Ends.bind (hrecorded.handle he hid) (fun _ w' hw' => ?_) (fun _ w' hw' => ?_)
    · exact ⟨hw'.2.2.2, hw'.2.1, _, hw'.2.2.1⟩
    · cases hw'.1

theorem Tracks.deliverAll (hconf : env.stripeConfigured = true ∧ env.webhookSecretConfigured = true)
    (ds : List (Delivery env)) (hadm : ∀ d ∈ ds, d.event.Admissible w₀)
    (hid : ∀ d ∈ ds, d.event.stripeSub.id = sid) (seen : List Id)
    (hseen : ∀ d ∈ ds, (w.processedWebhookEvents.get? d.id).isSome = true ↔ d.id ∈ seen)
    (ht : Tracks w₀ sid cell w) :
    Tracks w₀ sid ((changesOf (firstDeliveries seen w.now ds)).foldl step cell)
      (SaasBackend.deliverAll w ds) := by
  induction ds generalizing w cell seen with
  | nil => exact ht
  | cons d ds ih =>
    have hadm' : ∀ d' ∈ ds, d'.event.Admissible w₀ := fun d' hd' => hadm d' (by simp [hd'])
    have hid' : ∀ d' ∈ ds, d'.event.stripeSub.id = sid := fun d' hd' => hid d' (by simp [hd'])
    obtain ⟨hnow, hstep⟩ := ht.deliver hconf d (hadm d (by simp)) (hid d (by simp))
    simp only [SaasBackend.deliverAll, List.foldl_cons, firstDeliveries]
    by_cases hd : d.id ∈ seen
    · rw [if_pos ((hseen d (by simp)).mpr hd)] at hstep
      rw [if_pos hd, ← hnow]
      refine ih hadm' hid' seen (fun d' hd' => ?_) hstep.1
      rw [hstep.2]
      exact hseen d' (by simp [hd'])
    · have hnew : ¬ (w.processedWebhookEvents.get? d.id).isSome = true :=
        fun h => hd ((hseen d (by simp)).mp h)
      rw [if_neg hnew] at hstep
      obtain ⟨htracks, row, hledger⟩ := hstep
      rw [if_neg hd, changesOf, List.map_cons, List.foldl_cons, ← hnow]
      refine ih hadm' hid' (d.id :: seen) (fun d' hd' => ?_) (hnow ▸ htracks)
      rw [hledger, Table.get?_insert _ (by simpa using hnew)]
      by_cases heq : d'.id = d.id
      · simp [heq]
      · simp [heq, hseen d' (by simp [hd'])]

theorem mem_firstDeliveries {seen : List Id} {now : Time} {ds : List (Delivery env)}
    {p : SubscriptionEvent × Time} (hp : p ∈ firstDeliveries seen now ds) :
    ∃ d ∈ ds, d.event = p.1 := by
  induction ds generalizing seen now with
  | nil => simp [firstDeliveries] at hp
  | cons d ds ih =>
    simp only [firstDeliveries] at hp
    split at hp
    · obtain ⟨d', hd', heq⟩ := ih hp
      exact ⟨d', by simp [hd'], heq⟩
    · rcases List.mem_cons.mp hp with rfl | hrest
      · exact ⟨d, by simp, rfl⟩
      · obtain ⟨d', hd', heq⟩ := ih hrest
        exact ⟨d', by simp [hd'], heq⟩

theorem exists_firstDelivery (seen : List Id) (now : Time) {ds : List (Delivery env)}
    {d : Delivery env} (hd : d ∈ ds) (hnew : d.id ∉ seen) :
    ∃ p ∈ firstDeliveries seen now ds, p.1.event.id = d.id := by
  induction ds generalizing seen now with
  | nil => simp at hd
  | cons d₀ ds ih =>
    simp only [firstDeliveries]
    by_cases heq : d.id = d₀.id
    · exact ⟨(d₀.event, now + d₀.wait), by simp [← heq, hnew], heq.symm⟩
    · have hrest : d ∈ ds := by
        rcases List.mem_cons.mp hd with rfl | hrest
        · exact absurd rfl heq
        · exact hrest
      split
      · exact ih _ _ hrest hnew
      · obtain ⟨p, hp, hid⟩ := ih (d₀.id :: seen) (now + d₀.wait) hrest (by simp [heq, hnew])
        exact ⟨p, by simp [hp], hid⟩

end Deliveries

/-- The columns that say what is subscribed, by whom and for how long. -/
def Subscription.terms (r : Subscription) :
    Option Id × Option Id × Id × Id × Id × Option Time × Option Time × Option Time :=
  (r.userId, r.organizationId, r.planId, r.stripeSubscriptionId, r.stripeCustomerId, r.trialEndsAt,
    r.currentPeriodStart, r.currentPeriodEnd)

/-- The row is in the state the event carries; a deletion carries CANCELED. -/
def Carries (e : SubscriptionEvent) (r : Subscription) : Prop :=
  r.terms = e.data.terms ∧ r.canceledAt = e.data.canceledAt ∧
    r.status = if e.deletes then .canceled else e.data.status

def Converged (sid : Id) (e : SubscriptionEvent) (w : World) : Prop :=
  ∃ k r, w.subscriptions.get? k = some r ∧ r.stripeSubscriptionId = sid ∧ Carries e r

def LeftLive (sid : Id) (w : World) : Prop :=
  ∃ k r, w.subscriptions.get? k = some r ∧ r.stripeSubscriptionId = sid ∧
    r.status ∈ liveSubscriptionStatuses

/-- The object of the created or updated event with the greatest timestamp, with the
instant of the last deletion that first arrived after it. Without such an event it is
the row that was there before. -/
def newestObject (before : Option Subscription) (cs : List (Change Subscription Time)) :
    Option (Subscription × Option Time) :=
  match newest cs with
  | some (_, data, after) => some (data, lastClose after)
  | none => before.map (fun r => (r, lastClose cs))

/-- A created or updated event: no deletion first arrives after it, or it reports the
very cancelation that the last such deletion would. A deletion: the newest object has the
terms of the deleted one, and either some deletion first arrives after it, the last of them
at the instant that the deleted object gives, or it is itself canceled at that instant. -/
def Uncontested (e : SubscriptionEvent) : Option (Subscription × Option Time) → Prop
  | none => False
  | some (data, closed) =>
    if e.deletes then data.terms = e.data.terms ∧ (closed.isSome ∨ data.status = .canceled) ∧
      closed.or data.canceledAt = e.data.canceledAt
    else closed = none ∨ (data.status = .canceled ∧ data.canceledAt = closed)

/-- The newest object is not live, or a deletion first arrives after it. -/
def DeletionHeld : Option (Subscription × Option Time) → Prop
  | none => True
  | some (data, closed) => closed.isSome ∨ data.status ∉ liveSubscriptionStatuses

/-- The events of one subscription: an id or a timestamp names one event, none has been
processed before, and a row that exists is older than all of them. -/
structure Coherent (w₀ : World) (sid : Id) {env : Env} (ds : List (Delivery env)) : Prop where
  about : ∀ d ∈ ds, d.event.stripeSub.id = sid
  sameId : ∀ d ∈ ds, ∀ d' ∈ ds, d.id = d'.id → d.event.event = d'.event.event
  sameCreated : ∀ d ∈ ds, ∀ d' ∈ ds, d.event.created = d'.event.created →
    d.event.event = d'.event.event
  admissible : ∀ d ∈ ds, d.event.Admissible w₀
  unseen : ∀ d ∈ ds, w₀.processedWebhookEvents.get? d.id = none
  oneRow : ∀ k r k' r', w₀.subscriptions.get? k = some r → w₀.subscriptions.get? k' = some r' →
    r.stripeSubscriptionId = sid → r'.stripeSubscriptionId = sid → k = k'
  older : ∀ k r, w₀.subscriptions.get? k = some r → r.stripeSubscriptionId = sid →
    ∀ d ∈ ds, r.stripeEventCreatedAt.getD 0 ≤ d.event.stamp
  fresh : ∀ k r, w₀.subscriptions.get? k = some r → k < w₀.nonce

section Convergence

variable {env : Env} {w₀ w : World} {sid : Id} {c : Cell Subscription Time} {e : SubscriptionEvent}
  {ds : List (Delivery env)}

theorem Shows.terms {r : Subscription} (h : Shows c r) : r.terms = c.data.terms := by
  rw [h.row]
  unfold SaasBackend.rowOf
  split <;> rfl

theorem Shows.status {r : Subscription} (h : Shows c r) :
    r.status = if c.closed.isSome then .canceled else c.data.status := by
  rw [h.row]
  unfold SaasBackend.rowOf
  split <;> rename_i hclosed <;> simp [hclosed]

theorem Shows.canceledAt {r : Subscription} (h : Shows c r) :
    r.canceledAt = if c.closed.isSome then c.closed else c.data.canceledAt := by
  rw [h.row]
  unfold SaasBackend.rowOf
  split <;> rename_i hclosed <;> simp [hclosed]

/-- A row carries an event exactly when what its cell stands for is uncontested; a write
has to be the event's own. -/
theorem Shows.carries {r : Subscription} (h : Shows c r)
    (hown : e.deletes = false → c.data = e.data) :
    Carries e r ↔ Uncontested e (some (c.data, c.closed)) := by
  unfold Carries Uncontested
  rw [h.terms, h.status, h.canceledAt]
  cases hdel : e.deletes with
  | true => cases c.closed <;> simp [and_comm]
  | false =>
    rw [hown hdel]
    cases c.closed <;> simp [eq_comm, and_comm]

theorem Tracks.converged_iff {cell : Option (Cell Subscription Time)} (ht : Tracks w₀ sid cell w)
    (hown : ∀ c, cell = some c → e.deletes = false → c.data = e.data) :
    Converged sid e w ↔ Uncontested e (cell.map (fun c => (c.data, c.closed))) := by
  constructor
  · rintro ⟨k, r, hk, hid, hcarries⟩
    obtain ⟨c, rfl, hshows⟩ := ht.row k r hk hid
    exact (hshows.carries (hown c rfl)).mp hcarries
  · intro h
    cases cell with
    | none => cases h
    | some c =>
      obtain ⟨_, k, r, hk, hid⟩ := ht.present c rfl
      obtain ⟨c', hc', hshows⟩ := ht.row k r hk hid
      cases hc'
      exact ⟨k, r, hk, hid, (hshows.carries (hown c rfl)).mpr h⟩

theorem Tracks.leftLive_iff {cell : Option (Cell Subscription Time)} (ht : Tracks w₀ sid cell w) :
    ¬ LeftLive sid w ↔ DeletionHeld (cell.map (fun c => (c.data, c.closed))) := by
  have hrow : ∀ c r, Shows c r →
      (r.status ∉ liveSubscriptionStatuses ↔ DeletionHeld (some (c.data, c.closed))) := by
    intro c r hshows
    rw [hshows.status]
    unfold DeletionHeld
    cases c.closed <;> simp [liveSubscriptionStatuses]
  constructor
  · intro h
    cases cell with
    | none => trivial
    | some c =>
      obtain ⟨_, k, r, hk, hid⟩ := ht.present c rfl
      obtain ⟨c', hc', hshows⟩ := ht.row k r hk hid
      cases hc'
      exact (hrow c r hshows).mp fun hlive => h ⟨k, r, hk, hid, hlive⟩
  · rintro h ⟨k, r, hk, hid, hlive⟩
    obtain ⟨c, rfl, hshows⟩ := ht.row k r hk hid
    exact (hrow c r hshows).mpr h hlive

def cellBefore (w₀ : World) (sid : Id) : Option (Cell Subscription Time) :=
  (w₀.subscriptions.find? (fun _ r => r.stripeSubscriptionId == sid)).map
    (fun p => { stamp := p.2.stripeEventCreatedAt.getD 0, data := p.2 })

theorem Coherent.tracks (hc : Coherent w₀ sid ds) : Tracks w₀ sid (cellBefore w₀ sid) w₀ := by
  refine ⟨fun k r hk hr => ?_, fun c hc' => ?_, hc.fresh, rfl, rfl, rfl⟩
  · have hfind : w₀.subscriptions.find? (fun _ r => r.stripeSubscriptionId == sid) = some (k, r) :=
      Table.find?_unique hk (by simp [hr]) (fun k' r' hk' hr' =>
        hc.oneRow k' r' k r hk' hk (by simpa using hr') hr)
    exact ⟨_, by rw [cellBefore, hfind]; rfl, rfl, rfl⟩
  · unfold cellBefore at hc'
    obtain ⟨⟨k, r⟩, hfind, rfl⟩ := Option.map_eq_some_iff.mp hc'
    obtain ⟨hk, hr⟩ := Table.find?_some hfind
    exact ⟨by simpa using hr, k, r, hk, by simpa using hr⟩

theorem write_mem_changesOf {seen : List Id} {now : Time} {s : Nat} {data : Subscription}
    (h : .write s data ∈ changesOf (firstDeliveries seen now ds)) :
    ∃ d ∈ ds, d.event.deletes = false ∧ s = d.event.stamp ∧ data = d.event.data := by
  obtain ⟨⟨e, t⟩, hp, hchange⟩ := List.mem_map.mp h
  obtain ⟨d, hd, rfl⟩ := mem_firstDeliveries hp
  refine ⟨d, hd, ?_⟩
  unfold SubscriptionEvent.change at hchange
  split at hchange
  · cases hchange
  · rename_i hdel
    cases hchange
    exact ⟨by simpa using hdel, rfl, rfl⟩

theorem mem_changesOf (now : Time) (hc : Coherent w₀ sid ds) {d : Delivery env} (hd : d ∈ ds)
    (hdel : d.event.deletes = false) :
    .write d.event.stamp d.event.data ∈ changesOf (firstDeliveries [] now ds) := by
  obtain ⟨⟨e, t⟩, hp, hid⟩ := exists_firstDelivery [] now hd (List.not_mem_nil (a := d.id))
  obtain ⟨d', hd', rfl⟩ := mem_firstDeliveries hp
  have heq := SubscriptionEvent.ext_event (hc.sameId d' hd' d hd hid)
  refine List.mem_map.mpr ⟨_, hp, ?_⟩
  simp [heq, SubscriptionEvent.change, hdel]

def finalObject (w₀ : World) (sid : Id) (ds : List (Delivery env)) :
    Option (Subscription × Option Time) :=
  newestObject ((w₀.subscriptions.find? (fun _ r => r.stripeSubscriptionId == sid)).map (·.2))
    (changesOf (firstDeliveries [] w₀.now ds))

theorem Coherent.deliverAll (hc : Coherent w₀ sid ds)
    (hconf : env.stripeConfigured = true ∧ env.webhookSecretConfigured = true) :
    ∃ cell : Option (Cell Subscription Time),
      cell.map (fun c => (c.data, c.closed)) = finalObject w₀ sid ds ∧
        Tracks w₀ sid cell (SaasBackend.deliverAll w₀ ds) := by
  have hunseen : ∀ d ∈ ds, (w₀.processedWebhookEvents.get? d.id).isSome = true ↔ d.id ∈ [] :=
    fun d hd => by rw [hc.unseen d hd]; simp
  refine ⟨_, ?_, hc.tracks.deliverAll hconf ds hc.admissible hc.about [] hunseen⟩
  rw [foldl_step_older]
  · unfold finalObject newestObject cellBefore
    cases newest (changesOf (firstDeliveries [] w₀.now ds)) with
    | none => simp [Function.comp_def]
    | some n => rfl
  · intro c hcell s data hmem
    obtain ⟨⟨k, r⟩, hfind, rfl⟩ := Option.map_eq_some_iff.mp hcell
    obtain ⟨hk, hr⟩ := Table.find?_some hfind
    obtain ⟨d, hd, _, rfl, _⟩ := write_mem_changesOf hmem
    exact hc.older k r hk (by simpa using hr) d hd

/-- When the greatest event is not a deletion, the newest object is its own. -/
theorem Coherent.finalObject_own (hc : Coherent w₀ sid ds) {d : Delivery env} (hd : d ∈ ds)
    (hnewest : ∀ d' ∈ ds, d'.event.created ≤ d.event.created) (hdel : d.event.deletes = false)
    {data : Subscription} {closed : Option Time}
    (hobj : finalObject w₀ sid ds = some (data, closed)) :
    data = d.event.data := by
  have hown := mem_changesOf w₀.now hc hd hdel
  unfold finalObject newestObject at hobj
  split at hobj
  · rename_i s data' after hn
    cases hobj
    obtain ⟨hmem, hmax⟩ := newest_some hn
    obtain ⟨d', hd', _, hs, hdata⟩ := write_mem_changesOf hmem
    have hle := hmax _ _ hown
    rw [hs] at hle
    have hge := hnewest d' hd'
    have hcreated : d'.event.created = d.event.created := by
      unfold SubscriptionEvent.stamp at hle
      omega
    rw [hdata, SubscriptionEvent.ext_event (hc.sameCreated d' hd' d hd hcreated)]
  · rename_i hn
    exact absurd hown (newest_none hn _ _)

end Convergence

/-- After all deliveries the row carries the event with the greatest timestamp exactly
when that event is uncontested, and a deletion that is the greatest event leaves the row
not live exactly when it held. -/
theorem deliveries_converge_iff (env : Env)
    (hconf : env.stripeConfigured = true ∧ env.webhookSecretConfigured = true) {w₀ : World}
    {sid : Id} {ds : List (Delivery env)} (hc : Coherent w₀ sid ds) {d : Delivery env} (hd : d ∈ ds)
    (hnewest : ∀ d' ∈ ds, d'.event.created ≤ d.event.created) :
    (Converged sid d.event (deliverAll w₀ ds) ↔ Uncontested d.event (finalObject w₀ sid ds)) ∧
      (d.event.deletes = true →
        (¬ LeftLive sid (deliverAll w₀ ds) ↔ DeletionHeld (finalObject w₀ sid ds))) := by
  obtain ⟨cell, hcell, ht⟩ := hc.deliverAll hconf
  rw [← hcell]
  refine ⟨ht.converged_iff fun c hsome hdel => ?_, fun _ => ht.leftLive_iff⟩
  subst hsome
  exact hc.finalObject_own hd hnewest hdel hcell.symm

section Sample

def sampleSub (status : StripeStatus) : StripeSub :=
  { id := 7, customer := 8, status, metadata := { userId := some 1, planId := some 2 } }

def createdEvent : SubscriptionEvent where
  event := { id := 11, created := some 1, body := .subscriptionCreated (sampleSub .active) }
  stripeSub := sampleSub .active
  owner := ⟨some 1, none⟩
  planId := 2
  created := 1
  body := .inl rfl
  stamped := rfl
  positive := by decide
  target := rfl

def deletedSub : StripeSub := { sampleSub .canceled with canceledAt := some 2 }

def deletedEvent : SubscriptionEvent where
  event := { id := 12, created := some 2, body := .subscriptionDeleted deletedSub }
  stripeSub := deletedSub
  owner := ⟨some 1, none⟩
  planId := 2
  created := 2
  body := .inr (.inr rfl)
  stamped := rfl
  positive := by decide
  target := rfl

def webhookEnv : Env :=
  { sampleEnv with
    constructEvent := fun rawBody _ =>
      if rawBody = "created" then .ok createdEvent.event
      else if rawBody = "deleted" then .ok deletedEvent.event
      else .error "no signatures match" }

def creation : Delivery webhookEnv := ⟨0, "created", "", createdEvent, rfl⟩

def deletion (wait : Time) : Delivery webhookEnv := ⟨wait, "deleted", "", deletedEvent, rfl⟩

def subscribableWorld : World :=
  { users := (∅ : Table User).insert 1 { email := "a@x.io" }
    plans := (∅ : Table Plan).insert 2 { name := "Pro", code := "pro", stripePriceId := 3 }
    nonce := 20 }

theorem coherent_sample (wait : Time) {ds : List (Delivery webhookEnv)}
    (hds : ∀ d ∈ ds, d = creation ∨ d = deletion wait) :
    Coherent subscribableWorld 7 ds := by
  have hnone : ∀ k, subscribableWorld.subscriptions.get? k = none := fun _ => rfl
  refine ⟨fun d hd => ?_, fun d hd d' hd' => ?_, fun d hd d' hd' => ?_, fun d hd => ?_,
    fun d hd => ?_, by simp [hnone], by simp [hnone], by simp [hnone]⟩
  · rcases hds d hd with rfl | rfl <;> rfl
  · rcases hds d hd with rfl | rfl <;> rcases hds d' hd' with rfl | rfl <;>
      simp [creation, deletion, Delivery.id, createdEvent, deletedEvent]
  · rcases hds d hd with rfl | rfl <;> rcases hds d' hd' with rfl | rfl <;>
      simp [creation, deletion, createdEvent, deletedEvent]
  · rcases hds d hd with rfl | rfl <;> exact ⟨rfl, rfl, rfl, rfl⟩
  · rfl

/-- In the order of their timestamps, the deletion at the instant that Stripe gives for it. -/
theorem deliveries_converge_iff_ordered :
    Converged 7 deletedEvent (deliverAll subscribableWorld [creation, deletion 2000]) := by
  have hsample : Coherent subscribableWorld 7 [creation, deletion 2000] :=
    coherent_sample 2000 (by simp)
  have h := (deliveries_converge_iff webhookEnv ⟨rfl, rfl⟩ hsample (d := deletion 2000) (by simp)
    (by simp [creation, deletion, createdEvent, deletedEvent])).1
  exact h.mpr ⟨rfl, .inl rfl, rfl⟩

/-- A deletion that arrives before the creation leaves no trace, and the creation makes
the row ACTIVE for good. One that arrives after it writes the time of its own arrival. -/
theorem late_creation_outlives_deletion :
    Coherent subscribableWorld 7 [deletion 2000, creation] ∧
      (∀ d ∈ [deletion 2000, creation], d.event.created ≤ deletedEvent.created) ∧
      ¬ Converged 7 deletedEvent (deliverAll subscribableWorld [deletion 2000, creation]) ∧
      LeftLive 7 (deliverAll subscribableWorld [deletion 2000, creation]) ∧
      ¬ Converged 7 deletedEvent (deliverAll subscribableWorld [creation, deletion 5000]) := by
  refine ⟨coherent_sample 2000 (by simp),
    by simp [creation, deletion, createdEvent, deletedEvent], ?_, ?_, ?_⟩
  · rintro ⟨k, r, hk, _, _, _, hstatus⟩
    have hactive : (deliverAll subscribableWorld [deletion 2000, creation]).subscriptions.rows.all
        (fun p => p.2.status == .active) = true := by decide
    have hr := List.all_eq_true.mp hactive _ (Table.mem_rows.mpr hk)
    simp only [show deletedEvent.deletes = true from rfl, if_true] at hstatus
    simp [hstatus] at hr
  · exact ⟨20, _, (Option.some_get (by decide)).symm, by decide, by decide⟩
  · rintro ⟨k, r, hk, _, _, hinstant, _⟩
    have hlate : (deliverAll subscribableWorld [creation, deletion 5000]).subscriptions.rows.all
        (fun p => p.2.canceledAt == some 5000) = true := by decide
    have hr := List.all_eq_true.mp hlate _ (Table.mem_rows.mpr hk)
    rw [hinstant] at hr
    revert hr
    decide

end Sample

end SaasBackend
