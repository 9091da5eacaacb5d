import SaasBackend.OrganizationBilling
import SaasBackend.PlanEntitlement

/-! What is shown as the subscription and what a cancellation takes. The two readers look
among the live statuses, the two cancellations among ACTIVE and TRIALING; each query makes
its own choice among equally new rows. -/

set_option autoImplicit false

namespace SaasBackend
open Keyed Handler

def getSubscription (first : NewestFirst) (userId : Id) : Req BillingReply := do
  let found ← query (fun w => (first.pick (w.subscriptions.filter (fun _ s =>
    s.userId == some userId && liveSubscriptionStatuses.contains s.status))).map
      (fun r => w.subscriptionView r.1 r.2))
  return .subscription found

def Newest (rows : List (Id × Subscription)) (x : Id × Subscription) : Prop :=
  x ∈ rows ∧ ∀ y ∈ rows, y.2.createdAt ≤ x.2.createdAt

section Newest

variable {rows : List (Id × Subscription)} {x : Id × Subscription}

instance : Decidable (Newest rows x) :=
  inferInstanceAs (Decidable (x ∈ rows ∧ ∀ y ∈ rows, y.2.createdAt ≤ x.2.createdAt))

theorem NewestFirst.newest_of_pick {first : NewestFirst} (h : first.pick rows = some x) :
    Newest rows x := ⟨first.mem h, fun _ => first.newest h⟩

theorem NewestFirst.pick_nil (first : NewestFirst) : first.pick [] = none := by
  cases hpick : first.pick [] with
  | none => rfl
  | some x => cases first.mem hpick

theorem SoleNewest.filter {p : Id × Subscription → Bool} (h : SoleNewest rows x)
    (hx : p x = true) : SoleNewest (rows.filter p) x :=
  ⟨List.mem_filter.mpr ⟨h.1, hx⟩, fun y hy => h.2 y (List.mem_of_mem_filter hy)⟩

/-- A row that is the only choice among the newest is newer than the others. -/
theorem Newest.sole (h : Newest rows x) (honly : ∀ y, Newest rows y → y = x) :
    SoleNewest rows x := by
  refine ⟨h.1, fun y hy hne => lt_of_le_of_ne (h.2 y hy) fun hsame => hne (honly y ⟨hy, ?_⟩)⟩
  exact fun z hz => hsame ▸ h.2 z hz

def NewestFirst.preferring (x : Id × Subscription) : NewestFirst where
  pick rows := if Newest rows x then some x else latest rows
  mem h := by
    split at h
    · rename_i hx
      exact Option.some.inj h ▸ hx.1
    · exact latest_mem h
  newest h hy := by
    split at h
    · rename_i hx
      exact Option.some.inj h ▸ hx.2 _ hy
    · exact NewestFirst.tableOrder.newest h hy
  found h := by
    split at h
    · cases h
    · exact NewestFirst.tableOrder.found h

theorem Newest.pick_preferring (h : Newest rows x) :
    (NewestFirst.preferring x).pick rows = some x :=
  if_pos h

end Newest

def World.stripeCancels (w : World) (env : Env) (r : Subscription) : Bool :=
  env.stripeConfigured && (w.stripe.get? r.stripeSubscriptionId).isSome

def World.withCancelled (w : World) (k : Id) (r : Subscription) : World :=
  { w with
    stripe := w.stripe.update r.stripeSubscriptionId (fun s => { s with status := .canceled })
    subscriptions := w.subscriptions.update k
      (fun s => { s with status := .canceled, canceledAt := some w.now }) }

/-- The cancellation takes the subscription that is shown and no other, and answers not-found
exactly when none is shown. -/
structure CancelsShown (env : Env) (w : World) (shown : Option SubscriptionView)
    (cancel : Req SubscriptionView) : Prop where
  notFound : (cancel.runs w).1 = .error (httpError "errors.noActiveSubscription" 404) ↔ shown = none
  untouched : shown = none → (cancel.runs w).2 = w
  cancelled : ∀ v r, shown = some v → w.subscriptions.get? v.id = some r →
    if w.stripeCancels env r then
      cancel.runs w = (.ok { v with status := .canceled, canceledAt := some w.now },
        w.withCancelled v.id r)
    else (cancel.runs w).2 = w

def CancelsCurrent (env : Env) (w : World) (read : Req BillingReply)
    (cancel : Req SubscriptionView) : Prop :=
  ∃ shown, read.runs w = (.ok (.subscription shown), w) ∧ CancelsShown env w shown cancel

/-- The owner has no live row; or one is the newest of them, and not PAST_DUE; or a row can be
taken, but Stripe can cancel none of the newest, live or to be taken. -/
def NewestTaken (env : Env) (w : World) (owned : Subscription → Bool) : Prop :=
  w.rowsOf owned liveSubscriptionStatuses = [] ∨
    (∃ x, SoleNewest (w.rowsOf owned liveSubscriptionStatuses) x ∧ x.2.status ≠ .pastDue) ∨
    w.rowsOf owned [.active, .trialing] ≠ [] ∧
      ∀ x, Newest (w.rowsOf owned liveSubscriptionStatuses) x ∨
      Newest (w.rowsOf owned [.active, .trialing]) x → w.stripeCancels env x.2 = false

section Cancel

variable {env : Env} {w : World} {first : NewestFirst} {owned : Subscription → Bool} {k : Id}
  {r : Subscription}

theorem cancelOwned_none (env : Env) (h : w.cancelable first owned = none) :
    (cancelOwned env first owned).runs w =
      (.error (httpError "errors.noActiveSubscription" 404), w) := by
  unfold cancelOwned Req.runs
  simp only [Prog.bind_eq, query, Prog.send_bind, Prog.run_stmt, Stmt.exec, h]
  rfl

theorem updateWhere_singleton {t : Table Subscription} {f : Subscription → Subscription} :
    t.updateWhere (fun k' _ => [k].contains k') f = t.update k f := by
  unfold Table.update
  congr 1
  funext k' _
  exact Bool.or_false _

theorem cancelOwned_some (env : Env) (h : w.cancelable first owned = some (k, r)) :
    if w.stripeCancels env r then
      (cancelOwned env first owned).runs w =
        (.ok { w.subscriptionView k r with status := .canceled, canceledAt := some w.now },
          w.withCancelled k r)
    else (cancelOwned env first owned).runs w ∈
      [(.error (httpError "errors.stripeNotConfigured" 500), w),
      (.error (.outage "resource_missing"), w)] := by
  have hrow : w.subscriptions.get? k = some r := (Table.mem_filter.mp (first.mem h)).1
  unfold cancelOwned Req.runs World.stripeCancels
  simp only [Prog.bind_eq, query, Prog.send_bind, Prog.run_stmt, Stmt.exec, h]
  cases env.stripeConfigured with
  | false => exact .head _
  | true =>
    cases hstripe : w.stripe.get? r.stripeSubscriptionId with
    | none =>
      simp only [Bool.not_true, Bool.false_eq_true, if_false, Bool.true_and, Option.isSome_none,
        execute, Prog.send_bind, Prog.run_stmt, Stmt.exec, hstripe]
      exact .tail _ (.head _)
    | some s =>
      simp only [Bool.not_true, Bool.false_eq_true, if_false, Bool.true_and, Option.isSome_some,
        if_true, execute, Prog.send_bind, Prog.run_stmt, Stmt.exec, hstripe, date, query,
        SaasBackend.send, hrow, Option.map_some, updateWhere_singleton]
      rfl

theorem mem_rowsOf {statuses : List SubscriptionStatus} {x : Id × Subscription} :
    x ∈ w.rowsOf owned statuses ↔
      w.subscriptions.get? x.1 = some x.2 ∧ owned x.2 = true ∧ statuses.contains x.2.status =
        true := by
  unfold World.rowsOf
  rw [Table.mem_filter, Bool.and_eq_true]

theorem rowsOf_cancelable : w.rowsOf owned [.active, .trialing] =
    (w.rowsOf owned liveSubscriptionStatuses).filter (fun x => decide (x.2.status ≠ .pastDue)) := by
  unfold World.rowsOf Table.filter
  rw [List.filter_filter]
  congr 1
  funext x
  cases hstatus : x.2.status <;> simp [hstatus, liveSubscriptionStatuses]

theorem cancelOwned_refused (h : w.cancelable first owned = some (k, r))
    (hstripe : w.stripeCancels env r = false) :
    (cancelOwned env first owned).runs w ∈
      [(.error (httpError "errors.stripeNotConfigured" 500), w),
      (.error (.outage "resource_missing"), w)] := by
  have hrun := cancelOwned_some env h
  rwa [hstripe] at hrun

theorem cancelOwned_found (h : w.cancelable first owned = some (k, r)) :
    ((cancelOwned env first owned).runs w).1 ≠
      .error (httpError "errors.noActiveSubscription" 404) := by
  cases hstripe : w.stripeCancels env r with
  | false =>
    intro hended
    rcases List.mem_pair.mp (cancelOwned_refused h hstripe) with hrun | hrun
    · rw [hrun] at hended
      exact absurd (Err.http.inj (Except.error.inj hended)).1 (by decide)
    · rw [hrun] at hended
      cases hended
  | true =>
    have hrun := cancelOwned_some env h
    rw [hstripe, if_pos rfl] at hrun
    rw [hrun]
    intro hended
    cases hended

theorem cancelOwned_refused_world (h : w.cancelable first owned = some (k, r))
    (hstripe : w.stripeCancels env r = false) :
    ((cancelOwned env first owned).runs w).2 = w := by
  rcases List.mem_pair.mp (cancelOwned_refused h hstripe) with hrun | hrun <;> rw [hrun]

theorem CancelsShown.none (h : w.cancelable first owned = none) :
    CancelsShown env w none (cancelOwned env first owned) := by
  have hrun := cancelOwned_none env h
  exact ⟨iff_of_true (congrArg Prod.fst hrun) rfl, fun _ => congrArg Prod.snd hrun,
    fun _ _ hv => absurd hv.symm (Option.some_ne_none _)⟩

theorem CancelsShown.taken (h : w.cancelable first owned = some (k, r)) :
    CancelsShown env w (some (w.subscriptionView k r)) (cancelOwned env first owned) := by
  refine ⟨iff_of_false (cancelOwned_found h) (Option.some_ne_none _),
    fun hnone => absurd hnone (Option.some_ne_none _), fun v r' hv hr' => ?_⟩
  cases hv
  cases hr'.symm.trans (Table.mem_filter.mp (first.mem h)).1
  cases hstripe : w.stripeCancels env r with
  | false => exact cancelOwned_refused_world h hstripe
  | true =>
    have hrun := cancelOwned_some env h
    rwa [hstripe] at hrun

/-- One row is shown, another is taken: only a failing request does not tell. -/
theorem cancelsShown_other_iff (h : w.cancelable first owned = some (k, r)) {x : Id × Subscription}
    (hx : w.subscriptions.get? x.1 = some x.2) (hne : k ≠ x.1) :
    CancelsShown env w (some (w.subscriptionView x.1 x.2)) (cancelOwned env first owned) ↔
      w.stripeCancels env x.2 = false ∧ w.stripeCancels env r = false := by
  obtain ⟨hrow, hstatus⟩ := Table.mem_filter.mp (first.mem h)
  rw [Bool.and_eq_true] at hstatus
  constructor
  · intro hshown
    have hcancelled := hshown.cancelled _ x.2 rfl hx
    have hrun := cancelOwned_some env h
    cases htaken : w.stripeCancels env r with
    | true =>
      rw [htaken, if_pos rfl] at hrun
      rw [hrun] at hcancelled
      split at hcancelled
      · have hid := congrArg SubscriptionView.id (Except.ok.inj (Prod.mk.inj hcancelled).1)
        exact absurd hid hne
      · have hsame : (w.withCancelled k r).subscriptions.get? k = some r :=
          (congrArg (fun w' : World => w'.subscriptions.get? k) hcancelled).trans hrow
        simp only [World.withCancelled, Table.get?_update, if_true, hrow, Option.map_some,
          Option.some.injEq] at hsame
        rw [← hsame] at hstatus
        cases hstatus.2
    | false =>
      refine ⟨?_, rfl⟩
      cases hpossible : w.stripeCancels env x.2 with
      | false => rfl
      | true =>
        rw [hpossible, if_pos rfl] at hcancelled
        rcases List.mem_pair.mp (cancelOwned_refused h htaken) with hrefused | hrefused <;>
          cases hcancelled.symm.trans hrefused
  · rintro ⟨hpossible, htaken⟩
    refine ⟨iff_of_false (cancelOwned_found h) (Option.some_ne_none _),
      fun hnone => absurd hnone (Option.some_ne_none _),
    fun v r' hv hr' => ?_⟩
    cases hv
    cases hr'.symm.trans hx
    rw [hpossible]
    exact cancelOwned_refused_world h htaken

theorem cancelsShown_iff {x : Id × Subscription}
    (hx : x ∈ w.rowsOf owned liveSubscriptionStatuses) :
    CancelsShown env w (some (w.subscriptionView x.1 x.2)) (cancelOwned env first owned) ↔
      ∃ y, w.cancelable first owned = some y ∧
        (y = x ∨ w.stripeCancels env x.2 = false ∧ w.stripeCancels env y.2 = false) := by
  have hrow := (mem_rowsOf.mp hx).1
  cases htaken : w.cancelable first owned with
  | none =>
    refine iff_of_false (fun h => ?_) fun ⟨_, hnone, _⟩ => (by cases hnone)
    have hended := h.notFound.mp (by rw [cancelOwned_none env htaken])
    cases hended
  | some y =>
    obtain ⟨k, r⟩ := y
    simp only [Option.some.injEq, exists_eq_left']
    by_cases hsame : k = x.1
    · have hr : r = x.2 := by
        have hstored := (Table.mem_filter.mp (first.mem htaken)).1
        rw [hsame, hrow] at hstored
        exact (Option.some.inj hstored).symm
      subst hsame hr
      exact iff_of_true (.taken htaken) (.inl rfl)
    · refine (cancelsShown_other_iff htaken hrow hsame).trans (or_iff_right fun heq => ?_).symm
      exact hsame (congrArg Prod.fst heq)

theorem shown_taken_iff :
    (∀ first first' : NewestFirst, CancelsShown env w
      ((first.pick (w.rowsOf owned liveSubscriptionStatuses)).map
        (fun x => w.subscriptionView x.1 x.2))
      (cancelOwned env first' owned)) ↔ NewestTaken env w owned := by
  have hcancelable : ∀ first : NewestFirst,
      w.cancelable first owned = first.pick (w.rowsOf owned [.active, .trialing]) := fun _ => rfl
  constructor
  · intro h
    refine or_iff_not_imp_left.mpr fun hlive => ?_
    have hchosen : ∀ x, Newest (w.rowsOf owned liveSubscriptionStatuses) x → ∀ first' : NewestFirst,
        ∃ y, w.cancelable first' owned = some y ∧
          (y = x ∨ w.stripeCancels env x.2 = false ∧ w.stripeCancels env y.2 = false) := by
      intro x hx first'
      have hshown := h (.preferring x) first'
      rw [hx.pick_preferring, Option.map_some] at hshown
      exact (cancelsShown_iff hx.1).mp hshown
    obtain ⟨x₀, hx₀⟩ := NewestFirst.tableOrder.pick_some hlive
    have hnewest := NewestFirst.newest_of_pick hx₀
    obtain ⟨y₀, hy₀, _⟩ := hchosen x₀ hnewest .tableOrder
    by_contra hnot
    rw [not_or, not_and] at hnot
    obtain ⟨hnone, hsome⟩ := hnot
    obtain ⟨z, hz⟩ := not_forall.mp (hsome (List.ne_nil_of_mem (NewestFirst.mem _ hy₀)))
    obtain ⟨hpicked, hcancels⟩ := Classical.not_imp.mp hz
    -- the row that Stripe can cancel is the one choice of both queries
    have htaken : ∀ y, Newest (w.rowsOf owned [.active, .trialing]) y →
        w.stripeCancels env y.2 ≠ false → False := by
      intro y hy hyes
      have honly : ∀ x, Newest (w.rowsOf owned liveSubscriptionStatuses) x → x = y := by
        intro x hx
        obtain ⟨y', hy', hsame⟩ := hchosen x hx (.preferring y)
        cases hy.pick_preferring.symm.trans hy'
        exact hsame.elim Eq.symm fun hno => absurd hno.2 hyes
      obtain rfl := honly x₀ hnewest
      have hkept := rowsOf_cancelable ▸ hy.1
      exact hnone ⟨x₀, hnewest.sole honly, by simpa using (List.mem_filter.mp hkept).2⟩
    rcases hpicked with hz | hz
    · obtain ⟨y, hy, hsame⟩ := hchosen z hz .tableOrder
      obtain rfl := hsame.resolve_right fun hno => hcancels hno.1
      exact htaken y (NewestFirst.newest_of_pick hy) hcancels
    · exact htaken z hz hcancels
  · rintro (hnone | ⟨x, hx, hpast⟩ | ⟨hsome, hrefused⟩) first first'
    · rw [hnone, first.pick_nil]
      exact .none (by rw [hcancelable, rowsOf_cancelable, hnone]; exact first'.pick_nil)
    · rw [hx.pick_eq, Option.map_some]
      refine (cancelsShown_iff hx.1).mpr ⟨x, ?_, .inl rfl⟩
      rw [hcancelable, rowsOf_cancelable]
      exact (hx.filter (decide_eq_true hpast)).pick_eq first'
    · have hlive : w.rowsOf owned liveSubscriptionStatuses ≠ [] := by
        intro hnone
        rw [rowsOf_cancelable, hnone] at hsome
        exact hsome rfl
      obtain ⟨x, hx⟩ := first.pick_some hlive
      obtain ⟨y, hy⟩ := first'.pick_some hsome
      rw [hx, Option.map_some]
      exact (cancelsShown_iff (first.mem hx)).mpr ⟨y, hy,
        .inr ⟨hrefused x (.inl (NewestFirst.newest_of_pick hx)),
          hrefused y (.inr (NewestFirst.newest_of_pick hy))⟩⟩

theorem cancelsCurrent_iff {read : Req BillingReply} {shown : Option SubscriptionView}
    {cancel : Req SubscriptionView} (hread : read.runs w = (.ok (.subscription shown), w)) :
    CancelsCurrent env w read cancel ↔ CancelsShown env w shown cancel := by
  refine ⟨fun ⟨shown', hshown, h⟩ => ?_, fun h => ⟨_, hread, h⟩⟩
  have hsame := Except.ok.inj (Prod.mk.inj (hshown.symm.trans hread)).1
  exact BillingReply.subscription.inj hsame ▸ h

end Cancel

/-- For every user and every organization, and whatever the queries choose among equally new
rows: what is shown as the subscription is what a cancellation takes exactly when one row is
the newest of the live ones, and not PAST_DUE. -/
theorem cancels_current_iff (env : Env) (w : World) :
    (∀ userId, (∀ first first' : NewestFirst, CancelsCurrent env w (getSubscription first userId)
        (cancelSubscription env first' userId)) ↔
          NewestTaken env w (fun s => s.userId == some userId)) ∧
    ∀ organizationId, (∀ first first' : NewestFirst,
      CancelsCurrent env w (getOrgSubscription first organizationId)
        (cancelOrgSubscription env first' organizationId)) ↔
          NewestTaken env w (fun s => s.organizationId == some organizationId) :=
  ⟨fun _ => (forall₂_congr fun _ _ => cancelsCurrent_iff rfl).trans shown_taken_iff,
    fun _ => (forall₂_congr fun _ _ => cancelsCurrent_iff rfl).trans shown_taken_iff⟩

section Sample

def shownSubscription (sid : Id) (status : SubscriptionStatus)
    (createdAt : Time) : Subscription where
  userId := some 1
  planId := 2
  stripeSubscriptionId := sid
  stripeCustomerId := 8
  status := status
  createdAt := createdAt

def pastDueWorld : World where
  users := (∅ : Table User).insert 1 { email := "a@x.io" }
  subscriptions := ((∅ : Table Subscription).insert 4 (shownSubscription 7 .active 10)).insert 5
    (shownSubscription 9 .pastDue 20)
  stripe := ((∅ : Table StripeSub).insert 7 { id := 7, customer := 8, status := .active }).insert 9
    { id := 9, customer := 8, status := .pastDue }
  now := 30
  nonce := 10

/-- Row 5 is shown, row 4 is cancelled. With row 5 alone, there is nothing to cancel. -/
theorem past_due_not_cancelled :
    (¬ ∀ first first' : NewestFirst, CancelsCurrent sampleEnv pastDueWorld (getSubscription first 1)
        (cancelSubscription sampleEnv first' 1)) ∧
      (((getSubscription .tableOrder 1).runs pastDueWorld).1 =
          .ok (.subscription (some
            (pastDueWorld.subscriptionView 5 (shownSubscription 9 .pastDue 20)))) ∧
        ((cancelSubscription sampleEnv .tableOrder 1).runs pastDueWorld).2 =
          pastDueWorld.withCancelled 4 (shownSubscription 7 .active 10)) ∧
      ((cancelSubscription sampleEnv .tableOrder 1).runs
          { pastDueWorld with subscriptions := pastDueWorld.subscriptions.erase 4 }).1 =
        .error (httpError "errors.noActiveSubscription" 404) := by
  refine ⟨fun h => ?_, ⟨rfl, rfl⟩, rfl⟩
  have hshown : CancelsShown sampleEnv pastDueWorld
      (some (pastDueWorld.subscriptionView 5 (shownSubscription 9 .pastDue 20)))
      (cancelSubscription sampleEnv .tableOrder 1) :=
    (cancelsCurrent_iff rfl).mp (h .tableOrder .tableOrder)
  have hother := (cancelsShown_other_iff (x := (5, shownSubscription 9 .pastDue 20)) rfl rfl
    (by decide)).mp hshown
  cases hother.2

end Sample

end SaasBackend
