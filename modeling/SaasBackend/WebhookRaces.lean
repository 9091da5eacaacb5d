import SaasBackend.WebhookOrder
import SaasBackend.HandlerInterleaving

set_option autoImplicit false

namespace SaasBackend
open Keyed Handler

/-- A created or updated event, or one that names no owner or no plan. -/
inductive UpsertRequest where
  | event (e : SubscriptionEvent)
  | unaddressed (stripeSub : StripeSub) (created : Option Nat)
      (skipped : stripeSub.metadata.target = none)

def UpsertRequest.prog : UpsertRequest → Req Unit
  | .event e => handleEvent e.event
  | .unaddressed stripeSub created _ => handleSubscriptionUpdated stripeSub created

def TheRow (w : World) (sid : Id) (r : Subscription) : Prop :=
  ∃ k, w.subscriptions.get? k = some r ∧ r.stripeSubscriptionId = sid ∧
    ∀ k' r', w.subscriptions.get? k' = some r' → r'.stripeSubscriptionId = sid → k' = k

/-- `stripeEventCreatedAt`; a row no event has written counts as older than all. -/
def Subscription.stamp (r : Subscription) : Time := r.stripeEventCreatedAt.getD 0

def WrittenBy (e : SubscriptionEvent) (r : Subscription) : Prop :=
  r = { e.data with createdAt := r.createdAt }

/-- An insert that finds a row of the same subscription finds none that is older. -/
def notBehind (w : World) : Stmt → Bool
  | .subscriptionCreate row => !w.subscriptions.any (fun _ r =>
      r.stripeSubscriptionId == row.stripeSubscriptionId && decide (r.stamp < row.stamp))
  | _ => true

/-- Rows of `sid` stay, and change only to what an event of `E` carries, never to an
older stamp. -/
def Newer (E : SubscriptionEvent → Prop) (sid : Id) (w w' : World) : Prop :=
  ∀ k r, w.subscriptions.get? k = some r → r.stripeSubscriptionId = sid →
    ∃ r', w'.subscriptions.get? k = some r' ∧ r'.stripeSubscriptionId = sid ∧
      (r' = r ∨ r.stamp ≤ r'.stamp ∧ ∃ e, E e ∧ WrittenBy e r')

theorem Newer.refl (E : SubscriptionEvent → Prop) (sid : Id) (w : World) : Newer E sid w w :=
  fun _ r hk hr => ⟨r, hk, hr, .inl rfl⟩

theorem Newer.trans {E : SubscriptionEvent → Prop} {sid : Id} {w₁ w₂ w₃ : World}
    (h₁ : Newer E sid w₁ w₂) (h₂ : Newer E sid w₂ w₃) : Newer E sid w₁ w₃ := by
  intro k r hk hr
  obtain ⟨r₂, hk₂, hr₂, h₁⟩ := h₁ k r hk hr
  obtain ⟨r₃, hk₃, hr₃, h₂⟩ := h₂ k r₂ hk₂ hr₂
  refine ⟨r₃, hk₃, hr₃, ?_⟩
  rcases h₂ with rfl | ⟨hle, hwritten⟩
  · exact h₁
  · rcases h₁ with rfl | ⟨hle₁, _⟩
    · exact .inr ⟨hle, hwritten⟩
    · exact .inr ⟨Nat.le_trans hle₁ hle, hwritten⟩

/-- The store while events of `E` about `sid` are handled, begun at `w₀`. -/
structure Racing (E : SubscriptionEvent → Prop) (sid : Id) (w₀ w : World) : Prop where
  oneRow : ∀ k r k' r', w.subscriptions.get? k = some r → w.subscriptions.get? k' = some r' →
    r.stripeSubscriptionId = sid → r'.stripeSubscriptionId = sid → k = k'
  fresh : ∀ k r, w.subscriptions.get? k = some r → k < w.nonce
  plans : w.plans = w₀.plans
  users : w.users = w₀.users
  organizations : w.organizations = w₀.organizations
  newer : Newer E sid w₀ w
  source : ∀ k r, w.subscriptions.get? k = some r → r.stripeSubscriptionId = sid →
    w₀.subscriptions.get? k = some r ∨ ∃ e, E e ∧ e.Admissible w₀ ∧ WrittenBy e r

def Settled (sid : Id) (e : SubscriptionEvent) (w : World) : Prop :=
  ∃ k r, w.subscriptions.get? k = some r ∧ r.stripeSubscriptionId = sid ∧
    (e.stamp < r.stamp ∨ WrittenBy e r)

section Statements

variable {E : SubscriptionEvent → Prop} {sid : Id} {w₀ w w' : World} {e : SubscriptionEvent}

theorem WrittenBy.stamp {r : Subscription} (h : WrittenBy e r) : r.stamp = e.stamp := by
  rw [h]
  rfl

theorem Settled.newer (hdistinct : ∀ e e', E e → E e' → e.created = e'.created → e = e') (he : E e)
    (h : Settled sid e w) (hnewer : Newer E sid w w') : Settled sid e w' := by
  obtain ⟨k, r, hk, hr, hsettled⟩ := h
  obtain ⟨r', hk', hr', hstep⟩ := hnewer k r hk hr
  refine ⟨k, r', hk', hr', ?_⟩
  rcases hstep with rfl | ⟨hle, e', he', hwritten⟩
  · exact hsettled
  · rcases hsettled with hlt | hown
    · exact .inl (Nat.lt_of_lt_of_le hlt hle)
    · rw [hown.stamp, hwritten.stamp] at hle
      rcases Nat.lt_or_eq_of_le hle with hlt | heq
      · exact .inl (by rwa [hwritten.stamp])
      · have hcreated : e.created = e'.created := by
          unfold SubscriptionEvent.stamp at heq
          omega
        rw [hdistinct e e' he he' hcreated]
        exact .inr hwritten

theorem admissible_of_checks (hxor : World.ownerXor e.data = true)
    (hkeys : (!w.hasPlan e.data.planId || !e.data.userId.all w.hasUser ||
      !e.data.organizationId.all w.hasOrganization) = false) : e.Admissible w := by
  simp only [Bool.or_eq_false_iff, Bool.not_eq_false'] at hkeys
  exact ⟨hkeys.1.1, hxor, hkeys.1.2, hkeys.2⟩

theorem apply_ok (hid : e.stripeSub.id = sid)
    (h : (Stmt.subscriptionApply e.data e.stamp).exec w = .ok w') :
    (w' = w ∧ w.subscriptions.any (fun _ r => subscriptionFresh sid e.stamp r) = false) ∨
      (e.Admissible w ∧ w.subscriptions.any (fun _ r => subscriptionFresh sid e.stamp r) = true ∧
        w' = { w with
        subscriptions := w.subscriptions.updateWhere (fun _ r => subscriptionFresh sid e.stamp r)
          (fun r => { e.data with createdAt := r.createdAt }) }) := by
  subst hid
  simp only [Stmt.exec] at h
  split at h
  · rename_i hany
    split at h
    · cases h
    · rename_i hxor
      split at h
      · cases h
      · rename_i hkeys
        cases h
        exact .inr ⟨admissible_of_checks (by simpa using hxor) (by simpa using hkeys), hany, rfl⟩
  · rename_i hnone
    cases h
    exact .inl ⟨rfl, Bool.not_eq_true _ ▸ hnone⟩

theorem create_ok (hid : e.stripeSub.id = sid)
    (h : (Stmt.subscriptionCreate e.data).exec w = .ok w') :
    e.Admissible w ∧ (∀ k r, w.subscriptions.get? k = some r → r.stripeSubscriptionId ≠ sid) ∧
      w' = { w with
        subscriptions := w.subscriptions.insert w.nonce { e.data with createdAt := w.now }
        nonce := w.nonce + 1 } := by
  subst hid
  simp only [Stmt.exec] at h
  split at h
  · cases h
  · rename_i hnone
    split at h
    · cases h
    · rename_i hxor
      split at h
      · cases h
      · rename_i hkeys
        cases h
        refine ⟨admissible_of_checks (by simpa using hxor) (by simpa using hkeys), fun k r hk hr =>
          ?_, rfl⟩
        have hother := Table.any_eq_false.mp (Bool.not_eq_true _ ▸ hnone) k r hk
        simp only [beq_eq_false_iff_ne] at hother
        exact hother hr.symm

theorem Racing.apply (h : Racing E sid w₀ w) (he : E e) (hid : e.stripeSub.id = sid)
    (hadm : e.Admissible w₀) :
    Racing E sid w₀ { w with
      subscriptions := w.subscriptions.updateWhere (fun _ r => subscriptionFresh sid e.stamp r)
        (fun r => { e.data with createdAt := r.createdAt }) } ∧
    Newer E sid w { w with
      subscriptions := w.subscriptions.updateWhere (fun _ r => subscriptionFresh sid e.stamp r)
        (fun r => { e.data with createdAt := r.createdAt }) } := by
  have hback : ∀ k r', (w.subscriptions.updateWhere (fun _ r => subscriptionFresh sid e.stamp r)
      (fun r => { e.data with createdAt := r.createdAt })).get? k = some r' →
      r'.stripeSubscriptionId = sid →
      ∃ r, w.subscriptions.get? k = some r ∧ r.stripeSubscriptionId = sid ∧
        (r' = r ∨ WrittenBy e r') := by
    intro k r' hk hr'
    rw [Table.get?_updateWhere, Option.map_eq_some_iff] at hk
    obtain ⟨r, hr, hrow⟩ := hk
    split at hrow
    · rename_i hfresh
      simp only [subscriptionFresh, Bool.and_eq_true, beq_iff_eq] at hfresh
      subst hrow
      exact ⟨r, hr, hfresh.1, .inr rfl⟩
    · subst hrow
      exact ⟨r, hr, hr', .inl rfl⟩
  have hnewer : Newer E sid w { w with
      subscriptions := w.subscriptions.updateWhere (fun _ r => subscriptionFresh sid e.stamp r)
        (fun r => { e.data with createdAt := r.createdAt }) } := by
    intro k r hk hr
    by_cases hfresh : subscriptionFresh sid e.stamp r = true
    · refine ⟨{ e.data with createdAt := r.createdAt }, by simp [hk, hfresh], hid,
        .inr ⟨?_, e, he, rfl⟩⟩
      simp only [subscriptionFresh, Bool.and_eq_true] at hfresh
      show r.stamp ≤ e.stamp
      unfold Subscription.stamp
      cases hstamp : r.stripeEventCreatedAt with
      | none => exact Nat.zero_le _
      | some t => simpa [hstamp] using hfresh.2
    · exact ⟨r, by simp [hk, hfresh], hr, .inl rfl⟩
  refine ⟨⟨fun k r k' r' hk hk' hr hr' => ?_, fun k r hk => ?_, h.plans, h.users, h.organizations,
    h.newer.trans hnewer, fun k r' hk hr' => ?_⟩, hnewer⟩
  · obtain ⟨_, hk₀, hr₀, _⟩ := hback k r hk hr
    obtain ⟨_, hk₀', hr₀', _⟩ := hback k' r' hk' hr'
    exact h.oneRow _ _ _ _ hk₀ hk₀' hr₀ hr₀'
  · rw [Table.get?_updateWhere, Option.map_eq_some_iff] at hk
    obtain ⟨r₀, hr₀, _⟩ := hk
    exact h.fresh k r₀ hr₀
  · obtain ⟨r, hk₀, hr₀, hstep⟩ := hback k r' hk hr'
    rcases hstep with rfl | hwritten
    · exact h.source k r' hk₀ hr₀
    · exact .inr ⟨e, he, hadm, hwritten⟩

theorem Racing.create (h : Racing E sid w₀ w) (he : E e) (hadm : e.Admissible w₀)
    (hnone : ∀ k r, w.subscriptions.get? k = some r → r.stripeSubscriptionId ≠ sid) :
    Racing E sid w₀ { w with
      subscriptions := w.subscriptions.insert w.nonce { e.data with createdAt := w.now }, nonce :=
      w.nonce + 1 } ∧
    Newer E sid w { w with
      subscriptions := w.subscriptions.insert w.nonce { e.data with createdAt := w.now }, nonce :=
      w.nonce + 1 } := by
  have hnewer : Newer E sid w { w with
      subscriptions := w.subscriptions.insert w.nonce { e.data with createdAt := w.now }
      nonce := w.nonce + 1 } := fun k r hk hr => absurd hr (hnone k r hk)
  have hrow : ∀ k r, (w.subscriptions.insert w.nonce { e.data with createdAt := w.now }).get?
    k = some r →
      r.stripeSubscriptionId = sid → k = w.nonce ∧ WrittenBy e r := by
    intro k r hk hr
    rcases Table.get?_insert_cases hk with hold | ⟨rfl, rfl⟩
    · exact absurd hr (hnone k r hold)
    · exact ⟨rfl, rfl⟩
  refine ⟨⟨fun k r k' r' hk hk' hr hr' => ?_, fun k r hk => ?_, h.plans, h.users, h.organizations,
    h.newer.trans hnewer, fun k r hk hr => ?_⟩, hnewer⟩
  · exact (hrow k r hk hr).1.trans (hrow k' r' hk' hr').1.symm
  · rcases Table.get?_insert_cases hk with hold | ⟨rfl, _⟩
    · exact Nat.lt_succ_of_lt (h.fresh k r hold)
    · exact Nat.lt_succ_self _
  · exact .inr ⟨e, he, hadm, (hrow k r hk hr).2⟩

end Statements

section Handlers

variable (E : SubscriptionEvent → Prop) (sid : Id) (w₀ : World)

def Upserts (l : Stmt) : Prop :=
  l = .read ∨ ∃ e, E e ∧ e.stripeSub.id = sid ∧
    (l = .subscriptionApply e.data e.stamp ∨ l = .subscriptionCreate e.data)

variable {E sid w₀}

theorem Racing.admissible {w : World} (h : Racing E sid w₀ w) (e : SubscriptionEvent) :
    e.Admissible w ↔ e.Admissible w₀ := by
  have hplan : w.hasPlan = w₀.hasPlan := by funext id; simp [World.hasPlan, h.plans]
  have huser : w.hasUser = w₀.hasUser := by funext id; simp [World.hasUser, h.users]
  have horg : w.hasOrganization = w₀.hasOrganization := by
    funext id; simp [World.hasOrganization, h.organizations]
  unfold SubscriptionEvent.Admissible
  rw [hplan, huser, horg]

theorem Racing.exec {w w' : World} {l : Stmt} (h : Racing E sid w₀ w) (hl : Upserts E sid l)
    (hexec : l.exec w = .ok w') : Racing E sid w₀ w' ∧ Newer E sid w w' := by
  rcases hl with rfl | ⟨e, he, hid, rfl | rfl⟩
  · cases hexec
    exact ⟨h, .refl E sid w⟩
  · rcases apply_ok hid hexec with ⟨rfl, _⟩ | ⟨hadm, _, rfl⟩
    · exact ⟨h, .refl E sid w'⟩
    · exact h.apply he hid ((h.admissible e).mp hadm)
  · obtain ⟨hadm, hnone, rfl⟩ := create_ok hid hexec
    exact h.create he ((h.admissible e).mp hadm) hnone

/-- Handlers put up with each other as long as rows only get newer. -/
def racing (E : SubscriptionEvent → Prop) (sid : Id) (w₀ : World) : Contract World Err Stmt where
  exec := Stmt.exec
  inv := Racing E sid w₀
  cond w l := notBehind w l = true
  guard _ l := Upserts E sid l
  rely := Newer E sid
  rely_refl := .refl E sid
  rely_trans _ _ _ := .trans
  keeps _ _ _ h hl hexec := (h.exec hl hexec).1

/-- What holds once a handler is done: an event that could be written has been, unless a
newer one was. -/
def afterwards (sid : Id) (w₀ : World) : UpsertRequest → Except Err Unit → World → Prop
  | .event e, _, w => e.Admissible w₀ → Settled sid e w
  | .unaddressed .., _, _ => True

def Passed (sid : Id) (e : SubscriptionEvent) (w : World) : Prop :=
  ∀ k r, w.subscriptions.get? k = some r → r.stripeSubscriptionId = sid → e.stamp < r.stamp

/-- A row that has come up since, and is no older than the event, settles it. -/
theorem settled_of_newer (hdistinct : ∀ e e', E e → E e' → e.created = e'.created → e = e')
    {e : SubscriptionEvent} (he : E e) {w₁ w₂ : World} (h₁ : Racing E sid w₀ w₁)
    (hpassed : Passed sid e w₁) (h₂ : Racing E sid w₀ w₂) (hnewer : Newer E sid w₁ w₂) {k : Id}
    {r : Subscription} (hk : w₂.subscriptions.get? k = some r) (hr : r.stripeSubscriptionId = sid)
    (hle : e.stamp ≤ r.stamp) : Settled sid e w₂ := by
  by_cases hrow : ∃ k₁ r₁, w₁.subscriptions.get? k₁ = some r₁ ∧ r₁.stripeSubscriptionId = sid
  · obtain ⟨k₁, r₁, hk₁, hr₁⟩ := hrow
    have hsettled : Settled sid e w₁ := ⟨k₁, r₁, hk₁, hr₁, .inl (hpassed k₁ r₁ hk₁ hr₁)⟩
    exact hsettled.newer hdistinct he hnewer
  · refine ⟨k, r, hk, hr, ?_⟩
    rcases h₂.source k r hk hr with hstart | ⟨e', he', _, hwritten⟩
    · obtain ⟨r', hk', hr', _⟩ := h₁.newer k r hstart hr
      exact absurd ⟨k, r', hk', hr'⟩ hrow
    · rcases Nat.lt_or_eq_of_le hle with hlt | heq
      · exact .inl hlt
      · have hcreated : e.created = e'.created := by
          rw [hwritten.stamp] at heq
          unfold SubscriptionEvent.stamp at heq
          omega
        rw [hdistinct e e' he he' hcreated]
        exact .inr hwritten

theorem passed_of_none {e : SubscriptionEvent} {w : World}
    (hnone : w.subscriptions.any (fun _ r => subscriptionFresh sid e.stamp r) = false) :
    Passed sid e w := by
  intro k r hk hr
  have hstale := Table.any_eq_false.mp hnone k r hk
  simp only [subscriptionFresh, hr, beq_self_eq_true, Bool.true_and] at hstale
  unfold Subscription.stamp
  cases hstamp : r.stripeEventCreatedAt with
  | none => simp [hstamp] at hstale
  | some t => simpa [hstamp] using hstale

theorem create_safe (hdistinct : ∀ e e', E e → E e' → e.created = e'.created → e = e')
    {e : SubscriptionEvent} (he : E e) (hid : e.stripeSub.id = sid) {w : World}
    (hw : Racing E sid w₀ w) (hpassed : Passed sid e w) :
    (racing E sid w₀).Safe (afterwards sid w₀ (.event e))
      ((execute (.subscriptionCreate e.data)).tryCatch
        (fun err => if err = .prisma .P2002 then Prog.ret () else Prog.throw err)) w := by
  refine Contract.safe_send_tryCatch.mpr fun w₁ hnewer h₁ hcond =>
    ⟨.inr ⟨e, he, hid, .inr rfl⟩, fun w₂ hok => ?_, fun err hfail => ?_⟩
  · obtain ⟨hadm, hfree, rfl⟩ := create_ok hid hok
    have hnonce : w₁.subscriptions.get? w₁.nonce = none := by
      cases hget : w₁.subscriptions.get? w₁.nonce with
      | none => rfl
      | some r => exact absurd (h₁.fresh _ r hget) (Nat.lt_irrefl _)
    intro w₃ hnewer₃ _ _
    have hsettled : Settled sid e { w₁ with
        subscriptions := w₁.subscriptions.insert w₁.nonce { e.data with createdAt := w₁.now }
        nonce := w₁.nonce + 1 } := ⟨w₁.nonce, _, Table.get?_insert_self _ hnonce, hid, .inr rfl⟩
    exact hsettled.newer hdistinct he hnewer₃
  · have hsettled : e.Admissible w₀ → Settled sid e w₁ := by
      intro hadm
      rw [show (racing E sid w₀).exec = Stmt.exec from rfl,
        exec_subscriptionCreate ((h₁.admissible e).mpr hadm) hid] at hfail
      split at hfail
      · rename_i hany
        obtain ⟨k, r, hk, hr⟩ := Table.any_eq_true.mp hany
        have hr : r.stripeSubscriptionId = sid := by simpa using (beq_iff_eq.mp hr).symm
        refine settled_of_newer hdistinct he hw hpassed h₁ hnewer hk hr ?_
        have hnot := hcond
        simp only [racing, notBehind, Bool.not_eq_true'] at hnot
        have hrow := Table.any_eq_false.mp hnot k r hk
        have hsid : e.data.stripeSubscriptionId = sid := hid
        have hstamp : e.data.stamp = e.stamp := rfl
        simpa [hr, hsid, hstamp] using hrow
      · cases hfail
    split
    · exact fun w₃ hnewer₃ _ hadm => (hsettled hadm).newer hdistinct he hnewer₃
    · exact fun w₃ hnewer₃ _ hadm => (hsettled hadm).newer hdistinct he hnewer₃

theorem event_safe (hdistinct : ∀ e e', E e → E e' → e.created = e'.created → e = e')
    {e : SubscriptionEvent} (he : E e) (hid : e.stripeSub.id = sid) (hdel : e.deletes = false)
    (w : World) :
    (racing E sid w₀).Safe (afterwards sid w₀ (.event e)) (handleEvent e.event) w := by
  rw [e.handleEvent_eq, hdel, if_neg Bool.false_ne_true]
  unfold upsertSubscription
  simp only [Prog.bind_eq, Prog.tryCatch_eq]
  -- the plan
  refine Contract.safe_send_bind.mpr fun w₁ _ h₁ _ =>
    ⟨.inl rfl, fun w' hok => ?_, by intro _ h; cases h⟩
  cases hok
  split
  · rename_i hplan
    intro w₂ _ _ hadm
    have hhas := hadm.1
    rw [World.hasPlan, ← h₁.plans] at hhas
    rw [Option.isNone_iff_eq_none] at hplan
    rw [hplan] at hhas
    cases hhas
  · -- the clock
    refine Contract.safe_send_bind.mpr fun w₂ _ h₂ _ =>
      ⟨.inl rfl, fun w' hok => ?_, by intro _ h; cases h⟩
    cases hok
    rw [e.eventStamp_eq]
    -- the conditional update
    refine Contract.safe_send_bind.mpr fun w₃ _ h₃ _ =>
      ⟨.inr ⟨e, he, hid, .inl rfl⟩, fun w₄ hok => ?_, fun err hfail => ?_⟩
    · rcases apply_ok hid hok with ⟨rfl, hnone⟩ | ⟨hadm, hany, rfl⟩
      · rw [hid, hnone, if_neg Bool.false_ne_true]
        exact create_safe hdistinct he hid h₃ (passed_of_none hnone)
      · rw [hid, hany, if_pos rfl]
        obtain ⟨k, r, hk, hfresh⟩ := Table.any_eq_true.mp hany
        have hsettled : Settled sid e { w₃ with
            subscriptions :=
            w₃.subscriptions.updateWhere (fun _ r => subscriptionFresh sid e.stamp r)
              (fun r => { e.data with createdAt := r.createdAt }) } :=
          ⟨k, { e.data with createdAt := r.createdAt }, by simp [hk, hfresh], hid, .inr rfl⟩
        exact fun w₅ hnewer _ _ => hsettled.newer hdistinct he hnewer
    · intro w₅ _ h₅ hadm
      have hexec := exec_subscriptionApply ((h₃.admissible e).mpr hadm) hid
      cases hexec.symm.trans hfail

end Handlers

def UpsertRequest.among (E : SubscriptionEvent → Prop) : UpsertRequest → Prop
  | .event e => E e
  | .unaddressed .. => True

/-- The row is what the greatest event of `E` carries, or, where it started out newer
than all of them, what it was. Events that name no plan or owner that exists are not
processed. -/
def NewestKept (E : SubscriptionEvent → Prop) (sid : Id) (w₀ w : World) : Prop :=
  (∀ e, E e → e.Admissible w₀ → (∀ e', E e' → e'.Admissible w₀ → e'.created ≤ e.created) →
    (∀ r₀, TheRow w₀ sid r₀ → r₀.stamp ≤ e.stamp) → ∃ r, TheRow w sid r ∧ WrittenBy e r) ∧
  ∀ r₀, TheRow w₀ sid r₀ → (∀ e, E e → e.Admissible w₀ → e.stamp < r₀.stamp) → TheRow w sid r₀

/-- Where no insert loses to an older row, the row ends up with the newest event. -/
theorem concurrent_upserts_keep_newest {E : SubscriptionEvent → Prop} {sid : Id} {w₀ : World}
    {tr : List (Event UpsertRequest World Stmt)} {c : Config UpsertRequest World Err Stmt Unit}
    (hone : ∀ k r k' r', w₀.subscriptions.get? k = some r → w₀.subscriptions.get? k' = some r' →
      r.stripeSubscriptionId = sid → r'.stripeSubscriptionId = sid → k = k')
    (hfresh : ∀ k r, w₀.subscriptions.get? k = some r → k < w₀.nonce)
    (hE : ∀ e, E e → e.deletes = false ∧ e.stripeSub.id = sid)
    (hdistinct : ∀ e e', E e → E e' → e.created = e'.created → e = e')
    (hsteps : Steps (Step Stmt.exec UpsertRequest.prog (UpsertRequest.among E)
      (fun w l => notBehind w l = true)) ⟨w₀, []⟩ tr c)
    (hdone : ∀ e, E e → ∃ (j : Nat) (p : Req Unit), c.pool[j]? = some (.event e, p) ∧ p.isDone) :
    NewestKept E sid w₀ c.store := by
  have hstart : Racing E sid w₀ w₀ :=
    ⟨hone, hfresh, rfl, rfl, rfl, .refl E sid w₀, fun k r hk _ => .inl hk⟩
  have hpool : Contract.PoolSafe (racing E sid w₀) (afterwards sid w₀) c := by
    have hinit : Contract.PoolSafe (racing E sid w₀) (afterwards sid w₀) ⟨w₀, []⟩ :=
      ⟨hstart, by simp⟩
    refine hinit.steps (fun _ _ _ h hl hexec => (h.exec hl hexec).2) (fun r w hr _ => ?_) hsteps
    cases r with
    | event e => exact event_safe hdistinct hr (hE e hr).2 (hE e hr).1 w
    | unaddressed stripeSub created hskipped =>
      rw [UpsertRequest.prog, handleSubscriptionUpdated, hskipped]
      exact fun _ _ _ => trivial
  obtain ⟨hw, hthreads⟩ := hpool
  have hsettled : ∀ e, E e → e.Admissible w₀ → Settled sid e c.store := by
    intro e he hadm
    obtain ⟨j, p, hj, hp⟩ := hdone e he
    obtain ⟨_, hpost⟩ := (hthreads j _ hj).done hp hw
    exact hpost hadm
  refine ⟨fun e he hadm hgreatest hstale => ?_, fun r₀ hrow hnewer => ?_⟩
  · obtain ⟨k, r, hk, hr, hstep⟩ := hsettled e he hadm
    refine ⟨r, ⟨k, hk, hr, fun k' r' hk' hr' => hw.oneRow _ _ _ _ hk' hk hr' hr⟩, ?_⟩
    rcases hstep with hlt | hwritten
    · rcases hw.source k r hk hr with hold | ⟨e', he', hadm', hwritten⟩
      · have hle := hstale r ⟨k, hold, hr, fun k' r' hk' hr' => hone _ _ _ _ hk' hold hr' hr⟩
        exact absurd hlt (Nat.not_lt.mpr hle)
      · have hle := hgreatest e' he' hadm'
        rw [hwritten.stamp] at hlt
        have hlt : e.created * 1000 < e'.created * 1000 := hlt
        omega
    · exact hwritten
  · obtain ⟨k, hk, hr, hunique⟩ := hrow
    obtain ⟨r, hk', hr', hstep⟩ := hw.newer k r₀ hk hr
    have hsame : r = r₀ := by
      rcases hstep with rfl | ⟨hle, _⟩
      · rfl
      · rcases hw.source k r hk' hr' with hold | ⟨e, he, hadm, hwritten⟩
        · rw [hk] at hold
          cases hold
          rfl
        · have hlt := hnewer e he hadm
          exact absurd (hwritten.stamp ▸ hle) (Nat.not_le.mpr hlt)
    subst hsame
    exact ⟨k, hk', hr', fun k' r' hk₁ hr₁ => hw.oneRow _ _ _ _ hk₁ hk' hr₁ hr'⟩

section Sample

def renewedEvent : SubscriptionEvent where
  event := { id := 13, created := some 2, body := .subscriptionUpdated (sampleSub .pastDue) }
  stripeSub := sampleSub .pastDue
  owner := ⟨some 1, none⟩
  planId := 2
  created := 2
  body := .inr (.inl rfl)
  stamped := rfl
  positive := deletedEvent.positive
  target := rfl

def firstEvents (e : SubscriptionEvent) : Prop := e = createdEvent ∨ e = renewedEvent

theorem firstEvents_upsert (e : SubscriptionEvent) (he : firstEvents e) :
    e.deletes = false ∧ e.stripeSub.id = 7 := by
  rcases he with rfl | rfl <;> exact ⟨rfl, rfl⟩

theorem firstEvents_distinct (e e' : SubscriptionEvent) (he : firstEvents e) (he' : firstEvents e')
    (hcreated : e.created = e'.created) : e = e' := by
  rcases he with rfl | rfl <;> rcases he' with rfl | rfl
  · rfl
  · cases hcreated
  · cases hcreated
  · rfl

def upsertsPlayed (sched : List Nat) : Config UpsertRequest World Err Stmt Unit :=
  Config.play Stmt.exec UpsertRequest.prog ⟨subscribableWorld, []⟩
    ([.inl (.event createdEvent), .inl (.event renewedEvent)] ++ sched.map .inr)

theorem concurrent_upserts_keep_newest_in_turn :
    NewestKept firstEvents 7 subscribableWorld (upsertsPlayed [0, 0, 0, 0, 1, 1, 1]).store := by
  have hmay : ∀ r, Sum.inl r ∈ ([.inl (.event createdEvent), .inl (.event renewedEvent)] ++
      [0, 0, 0, 0, 1, 1, 1].map Sum.inr : List (UpsertRequest ⊕ Nat)) → r.among firstEvents := by
    intro r hr
    simp only [List.mem_append, List.mem_cons, Sum.inl.injEq, List.not_mem_nil, or_false,
      List.mem_map, reduceCtorEq, and_false, exists_false] at hr
    rcases hr with rfl | rfl
    · exact .inl rfl
    · exact .inr rfl
  have hempty : ∀ k, subscribableWorld.subscriptions.get? k = none := fun _ => rfl
  have hobeys : Config.obeys Stmt.exec UpsertRequest.prog notBehind ⟨subscribableWorld, []⟩
      ([.inl (.event createdEvent), .inl (.event renewedEvent)] ++ [0, 0, 0, 0, 1, 1, 1].map .inr) =
        true := by
    decide
  obtain ⟨tr, hsteps⟩ := Config.play_steps Stmt.exec UpsertRequest.prog _ hmay _ hobeys
  refine concurrent_upserts_keep_newest (by simp [hempty]) (by simp [hempty])
    firstEvents_upsert firstEvents_distinct hsteps fun e he => ?_
  rcases he with rfl | rfl
  · exact ⟨0, _, rfl, trivial⟩
  · exact ⟨1, _, rfl, trivial⟩

/-- Both handlers find no row; the older event's insert comes first, and the newer
event's is dropped. -/
theorem racing_creation_wins :
    (∃ tr, Steps (Step Stmt.exec UpsertRequest.prog (UpsertRequest.among firstEvents)
      (fun _ _ => True)) ⟨subscribableWorld, []⟩ tr (upsertsPlayed [0, 0, 0, 1, 1, 1, 0, 1])) ∧
      (upsertsPlayed [0, 0, 0, 1, 1, 1, 0, 1]).pool =
        [(.event createdEvent, .ret ()), (.event renewedEvent, .ret ())] ∧
      ¬ NewestKept firstEvents 7 subscribableWorld
      (upsertsPlayed [0, 0, 0, 1, 1, 1, 0, 1]).store := by
  refine ⟨Config.play_steps_free _ _ _ (fun r hr => ?_) _, rfl, fun h => ?_⟩
  · simp only [List.mem_append, List.mem_cons, Sum.inl.injEq, List.not_mem_nil, or_false,
      List.mem_map, reduceCtorEq, and_false, exists_false] at hr
    rcases hr with rfl | rfl
    · exact .inl rfl
    · exact .inr rfl
  · have hadm : renewedEvent.Admissible subscribableWorld :=
      ⟨by decide, by decide, by decide, by decide⟩
    obtain ⟨r, ⟨k, hk, _⟩, hwritten⟩ := h.1 renewedEvent (.inr rfl) hadm
      (fun e he _ => by rcases he with rfl | rfl <;> decide) (fun r₀ ⟨k, hk, _⟩ => by cases hk)
    have hrows : (upsertsPlayed [0, 0, 0, 1, 1, 1, 0, 1]).store.subscriptions.rows.all
        (fun p => p.2.stamp == 1000) = true := by decide
    have hr := List.all_eq_true.mp hrows _ (Table.mem_rows.mpr hk)
    simp [hwritten.stamp, SubscriptionEvent.stamp, renewedEvent] at hr

end Sample

end SaasBackend
