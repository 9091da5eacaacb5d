import SaasBackend.BillingCancellation

set_option autoImplicit false

namespace SaasBackend
open Keyed Handler

def StripeStatus.terminal : StripeStatus → Bool
  | .canceled | .incompleteExpired => true
  | _ => false

def CalledBefore (l deletion : Stmt) (sent : List Stmt) : Prop :=
  ∃ before after, sent = before ++ deletion :: after ∧ l ∈ before

def World.goesWithUser (w : World) (userId : Id) (s : Subscription) : Bool :=
  s.userId == some userId || s.organizationId.any (w.cascadesOrg userId)

def Subscription.ofOrganization (orgId : Id) (s : Subscription) : Bool :=
  s.organizationId == some orgId

/-- A row that goes and whose subscription is not in a terminal state at Stripe. -/
def World.Billed (w : World) (goes : Subscription → Bool) (s : Subscription) : Prop :=
  (∃ k, w.subscriptions.get? k = some s) ∧ goes s = true ∧
    ∃ stripeSub, w.stripe.get? s.stripeSubscriptionId = some stripeSub ∧
    stripeSub.status.terminal = false

def NothingLeftBilled (w : World) (goes : Subscription → Bool) (deletion : Stmt)
    (sent : List Stmt) : Prop :=
  ∀ s, w.Billed goes s → CalledBefore (.stripeCancel s.stripeSubscriptionId) deletion sent

/-- Every billed row that goes, or one of the same subscription, is ACTIVE, TRIALING or
PAST_DUE here too. -/
def BilledRowsLive (w : World) (goes : Subscription → Bool) : Prop :=
  ∀ s, w.Billed goes s → ∃ k s', w.subscriptions.get? k = some s' ∧ goes s' = true ∧
    s'.stripeSubscriptionId = s.stripeSubscriptionId ∧ s'.live = true

/-- The deletion comes last, and before it exactly `sids` are cancelled at Stripe. -/
def CancelsThen (sids : List Id) (deletion : Stmt) (sent : List Stmt) : Prop :=
  ∃ before, sent = before ++ [deletion] ∧ ∀ sid, .stripeCancel sid ∈ before ↔ sid ∈ sids

section Orders

variable {sids : List Id} {deletion : Stmt} {sent : List Stmt}

theorem CancelsThen.after {ls : List Stmt} (h : CancelsThen sids deletion sent)
    (hls : ∀ l ∈ ls, ∀ sid, l ≠ .stripeCancel sid) : CancelsThen sids deletion (ls ++ sent) := by
  obtain ⟨before, rfl, hcancels⟩ := h
  refine ⟨ls ++ before, (List.append_assoc ..).symm, fun sid => ?_⟩
  rw [List.mem_append, hcancels, or_iff_right (fun hmem => hls _ hmem sid rfl)]

theorem CancelsThen.cancelled (subscriptions : List (Id × Subscription)) (deletion : Stmt)
    (rest : List Stmt) (hrest : ∀ l ∈ rest, ∀ sid, l ≠ .stripeCancel sid) :
    CancelsThen (subscriptions.map (·.2.stripeSubscriptionId)) deletion
      (subscriptions.map (fun x => .stripeCancel x.2.stripeSubscriptionId) ++
        (rest ++ [deletion])) := by
  refine ⟨_, (List.append_assoc ..).symm, fun sid => ?_⟩
  rw [List.mem_append, or_iff_left (fun hmem => hrest _ hmem sid rfl)]
  simp

theorem CancelsThen.calledBefore (h : CancelsThen sids deletion sent) (sid : Id) :
    CalledBefore (.stripeCancel sid) deletion sent ↔ sid ∈ sids := by
  obtain ⟨before, rfl, hcancels⟩ := h
  rw [← hcancels]
  constructor
  · rintro ⟨before', after, heq, hmem⟩
    have hstart : before' <+: before := by
      rw [show before' ++ deletion :: after = before' ++ deletion :: after from rfl] at heq
      have hle : before'.length ≤ before.length := by
        have hlength := congrArg List.length heq
        simp only [List.length_append, List.length_cons, List.length_nil] at hlength
        omega
      exact List.prefix_of_prefix_length_le ⟨deletion :: after, rfl⟩ ⟨[deletion], heq⟩ hle
    exact hstart.subset hmem
  · exact fun hmem => ⟨before, [], rfl, hmem⟩

end Orders

section Deletions

variable {env : Env} {w : World}

/-- When no call fails, each subscription is cancelled at Stripe, and the clock stands still. -/
theorem cancelAtStripe_traces (subscriptions : List (Id × Subscription)) :
    (cancelAtStripe subscriptions).Traces Stmt.exec (fun r ls w' => r = .ok () →
      ls = subscriptions.map (fun x => .stripeCancel x.2.stripeSubscriptionId) ∧
      w'.now = w.now) w := by
  induction subscriptions generalizing w with
  | nil => exact fun _ => ⟨rfl, rfl⟩
  | cons x rest ih =>
    simp only [cancelAtStripe, Prog.bind_eq, Prog.tryCatch_eq, Prog.traces_bind,
      Prog.traces_tryCatch, execute, Prog.traces_send]
    cases hexec : (Stmt.stripeCancel x.2.stripeSubscriptionId).exec w with
    | error e =>
      intro hr
      cases hr
    | ok w₁ =>
      have hnow : w₁.now = w.now := (exec_effect hexec).now
      refine ih.weaken fun r ls w' h hr => ?_
      obtain ⟨hls, hnow'⟩ := h hr
      exact ⟨by simp [hls], hnow'.trans hnow⟩

theorem lastAdmin_traces (demotes : Bool) :
    (lastAdmin demotes).Traces Stmt.exec (fun _ ls w' => w' = w ∧ ∀ l ∈ ls, l = .read) w := by
  cases demotes
  · exact ⟨rfl, by simp [lastAdmin, Prog.sent]⟩
  · exact ⟨rfl, fun l hl => List.mem_singleton.mp hl⟩

theorem deleteAccount_traces (hstripe : env.stripeConfigured = true) (userId : Id)
    (password : String) :
    (deleteAccount env userId password).Traces Stmt.exec (fun r ls _ => ∀ a, r = .ok a →
      CancelsThen ((w.subscriptionsOf userId).map (·.2.stripeSubscriptionId)) (.userDelete userId)
      ls) w := by
  unfold deleteAccount
  simp only [Prog.bind_eq, findUserById, traces_query_bind]
  split
  · intro a h
    cases h
  · split
    · intro a h
      cases h
    · rw [Prog.traces_bind]
      rename_i user _ hash _
      simp only [comparePassword, send, Prog.traces_send, Stmt.exec]
      split
      · intro a h
        cases h
      · rw [Prog.traces_bind]
        refine (lastAdmin_traces _).weaken fun last ls w' h => ?_
        obtain ⟨rfl, hreads⟩ := h
        cases last with
        | error e =>
          intro a h
          cases h
        | ok last =>
          simp only []
          split
          · intro a h
            cases h
          · simp only [traces_query_bind]
            split
            · intro a h
              cases h
            · simp only [hstripe, when, if_true, Prog.bind_assoc, traces_query_bind]
              rw [Prog.traces_bind]
              refine (cancelAtStripe_traces _).weaken fun r cancels w₁ h => ?_
              cases r with
              | error e =>
                intro a h
                cases h
              | ok u =>
                obtain ⟨hcancels, _⟩ := h rfl
                simp only [traces_execute_bind]
                cases hexec : (Stmt.userDelete userId).exec w₁ with
                | error e =>
                  intro a h
                  cases h
                | ok w₂ =>
                  intro a _
                  have hquiet : ∀ l ∈ ls, ∀ sid, l ≠ .stripeCancel sid := fun l hl sid => by
                    rw [hreads l hl]
                    intro heq
                    cases heq
                  have hend := CancelsThen.cancelled (w'.subscriptionsOf userId)
                    (.userDelete userId) [] (by simp)
                  rw [← hcancels] at hend
                  have hlast : CancelsThen _ _ (ls ++ ([.read, .read] ++ _)) :=
                    (hend.after (by simp)).after hquiet
                  have hall : CancelsThen _ _ ([.read, .bcryptCompare (some hash)] ++ _) :=
                    hlast.after (by simp)
                  simpa [Prog.sent] using hall

theorem deleteOrganization_traces (hstripe : env.stripeConfigured = true) (orgId : Id) :
    (deleteOrganization env orgId).Traces Stmt.exec (fun r ls _ => ∀ a, r = .ok a →
      CancelsThen ((w.subscriptions.filter (fun _ s => s.organizationId == some orgId &&
          liveSubscriptionStatuses.contains s.status)).map (·.2.stripeSubscriptionId))
        (.organizationUpdate orgId { deletedAt := some (some w.now) }) ls) w := by
  unfold deleteOrganization
  simp only [Prog.bind_eq, hstripe, when, if_true, Prog.bind_assoc, traces_query_bind]
  generalize w.subscriptions.filter (fun _ s => s.organizationId == some orgId &&
    liveSubscriptionStatuses.contains s.status) = rows
  rw [Prog.traces_bind]
  refine (cancelAtStripe_traces rows).weaken fun r cancels w₁ h => ?_
  cases r with
  | error e =>
    intro _ ha
    cases ha
  | ok u =>
    obtain ⟨rfl, hnow⟩ := h rfl
    generalize hdeletion : Stmt.organizationUpdate orgId
      { deletedAt := some (some w.now) } = deletion
    have hend : ∀ rest : List Stmt, (∀ l ∈ rest, ∀ sid, l ≠ .stripeCancel sid) →
        CancelsThen (rows.map (·.2.stripeSubscriptionId)) deletion
          ([.read] ++ (rows.map (fun x => .stripeCancel x.2.stripeSubscriptionId) ++
            (rest ++ [deletion]))) :=
      fun rest hrest => (CancelsThen.cancelled rows deletion rest hrest).after (by simp)
    simp only []
    split
    · simp only [Prog.bind_assoc, traces_date_bind, traces_execute_bind]
      cases hmark : (Stmt.subscriptionCancel (rows.map (·.1)) w₁.now).exec w₁ with
      | error e =>
        intro _ ha
        cases ha
      | ok w₂ =>
        have hnow₂ : w₂.now = w.now := ((exec_effect hmark).now).trans hnow
        simp only [hnow₂, hdeletion]
        split
        · intro a _
          simpa [Prog.sent] using hend [.read, .subscriptionCancel (rows.map (·.1)) w₁.now, .read]
            (by simp)
        · intro _ ha
          cases ha
    · simp only [Prog.ret_bind, traces_date_bind, traces_execute_bind, hnow, hdeletion]
      split
      · intro a _
        simpa [Prog.sent] using hend [.read] (by simp)
      · intro _ ha
        cases ha

end Deletions

/-- A log that cancels exactly the live rows leaves nothing billed when the billed rows are live. -/
theorem nothingLeftBilled_iff {w : World} {goes : Subscription → Bool} {deletion : Stmt}
    {sent : List Stmt} {rows : List (Id × Subscription)}
    (hrows : ∀ k s, (k, s) ∈ rows ↔ w.subscriptions.get? k = some s ∧ goes s = true ∧ s.live = true)
    (hsent : CancelsThen (rows.map (·.2.stripeSubscriptionId)) deletion sent) :
    NothingLeftBilled w goes deletion sent ↔ BilledRowsLive w goes := by
  refine forall_congr' fun s => imp_congr_right fun _ => ?_
  rw [hsent.calledBefore, List.mem_map]
  constructor
  · rintro ⟨⟨k, s'⟩, hmem, hsid⟩
    obtain ⟨hk, hgoes, hlive⟩ := (hrows k s').mp hmem
    exact ⟨k, s', hk, hgoes, hsid, hlive⟩
  · rintro ⟨k, s', hk, hgoes, hsid, hlive⟩
    exact ⟨(k, s'), (hrows k s').mpr ⟨hk, hgoes, hlive⟩, hsid⟩

/-- With Stripe configured, a successful deletion of an account or an organization leaves
nothing billed behind exactly when the rows that go and are still billed are live here. -/
theorem deletion_cancels_iff (env : Env) (hstripe : env.stripeConfigured = true) (w : World) :
    (∀ userId password a, ((deleteAccount env userId password).runs w).1 = .ok a →
      (NothingLeftBilled w (w.goesWithUser userId) (.userDelete userId)
          ((deleteAccount env userId password).sent Stmt.exec w) ↔
        BilledRowsLive w (w.goesWithUser userId))) ∧
      ∀ orgId a, ((deleteOrganization env orgId).runs w).1 = .ok a →
        (NothingLeftBilled w (Subscription.ofOrganization orgId)
            (.organizationUpdate orgId { deletedAt := some (some w.now) })
            ((deleteOrganization env orgId).sent Stmt.exec w) ↔
          BilledRowsLive w (Subscription.ofOrganization orgId)) := by
  refine ⟨fun userId password a hok => ?_, fun orgId a hok => ?_⟩
  · refine nothingLeftBilled_iff (fun k s => ?_)
      (deleteAccount_traces hstripe userId password a hok)
    rw [World.subscriptionsOf, Table.mem_filter, Bool.and_eq_true]
    exact and_congr_right fun _ => and_comm
  · refine nothingLeftBilled_iff (fun k s => ?_) (deleteOrganization_traces hstripe orgId a hok)
    rw [Table.mem_filter, Bool.and_eq_true]
    rfl

section Sample

def deletionEnv (status : StripeStatus) : Env :=
  { sampleEnv with
    constructEvent := fun _ _ =>
      .ok { id := 11, created := some 1, body := .subscriptionCreated (sampleSub status) } }

def subscriberWorld (status : StripeStatus) : World :=
  ((handleWebhook (deletionEnv status) "" (some "")).runs
    { users := (∅ : Table User).insert 1 { email := "a@x.io", password := some "pw" }
      plans := (∅ : Table Plan).insert 2 { name := "Pro", code := "pro", stripePriceId := 3 }
      stripe := (∅ : Table StripeSub).insert 7 (sampleSub status)
      now := 1000, nonce := 20 }).2

theorem deletion_cancels_iff_active : NothingLeftBilled (subscriberWorld .active)
    ((subscriberWorld .active).goesWithUser 1) (.userDelete 1)
    ((deleteAccount (deletionEnv .active) 1 "pw").sent Stmt.exec (subscriberWorld .active)) := by
  have h := (deletion_cancels_iff (deletionEnv .active) rfl (subscriberWorld .active)).1
    1 "pw" _ rfl
  refine h.mpr fun s ⟨⟨k, hk⟩, hgoes, _⟩ => ⟨k, s, hk, hgoes, rfl, ?_⟩
  have hall : (subscriberWorld .active).subscriptions.rows.all (fun r => r.2.live) = true := by
    decide
  exact List.all_eq_true.mp hall _ (Table.mem_rows.mpr hk)

/-- An unpaid subscription is not cancelled: the account and the row are gone, and Stripe
goes on with it. -/
theorem unpaid_left_billed :
    ((deleteAccount (deletionEnv .unpaid) 1 "pw").runs (subscriberWorld .unpaid)).1 =
        .ok ("messages.accountDeletedSuccessfully", "a@x.io") ∧
      ¬ NothingLeftBilled (subscriberWorld .unpaid) ((subscriberWorld .unpaid).goesWithUser 1)
        (.userDelete 1)
        ((deleteAccount (deletionEnv .unpaid) 1 "pw").sent Stmt.exec
          (subscriberWorld .unpaid)) := by
  refine ⟨rfl, fun h => ?_⟩
  obtain ⟨before, after, hsent, hmem⟩ := h _ ⟨⟨20, rfl⟩, rfl, _, rfl, rfl⟩
  have hall : ((deleteAccount (deletionEnv .unpaid) 1 "pw").sent Stmt.exec
    (subscriberWorld .unpaid)).all
      (fun l => match l with | .stripeCancel _ => false | _ => true) = true := by decide
  rw [hsent, List.all_append, Bool.and_eq_true] at hall
  have hcancel := List.all_eq_true.mp hall.1 _ hmem
  cases hcancel

end Sample

end SaasBackend
