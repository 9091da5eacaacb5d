import SaasBackend.BillingDeletion
import SaasBackend.HandlerFailures

set_option autoImplicit false

namespace SaasBackend
open Keyed Handler

def stripeCancellationFailed : Err := httpError "errors.stripeCancellationFailed" 502

/-- Every row of a subscription that these statements cancelled at Stripe is CANCELED, and
every other row as it was. -/
structure Truthful (sent : List Stmt) (w w' : World) : Prop where
  cancelled : ∀ k s, w'.subscriptions.get? k = some s →
    .stripeCancel s.stripeSubscriptionId ∈ sent → s.status = .canceled
  others : ∀ k s, .stripeCancel s.stripeSubscriptionId ∉ sent →
    (w'.subscriptions.get? k = some s ↔ w.subscriptions.get? k = some s)

theorem Truthful.of_calls {sent sent' : List Stmt} {w w' : World} (h : Truthful sent w w')
    (hsame : ∀ sid, .stripeCancel sid ∈ sent ↔ .stripeCancel sid ∈ sent') : Truthful sent' w w' :=
  ⟨fun k s hk hmem => h.cancelled k s hk ((hsame _).mpr hmem),
    fun k s hmem => h.others k s fun hold => hmem ((hsame _).mp hold)⟩

/-- Where the table is the one of before, no row that is not CANCELED may have been cancelled. -/
theorem truthful_iff {sent : List Stmt} {w w' : World}
    (hsubs : w'.subscriptions = w.subscriptions) :
    Truthful sent w w' ↔ ∀ k s, w.subscriptions.get? k = some s →
      .stripeCancel s.stripeSubscriptionId ∈ sent →
      s.status = .canceled :=
  ⟨fun h k s hk => h.cancelled k s (hsubs ▸ hk),
    fun h => ⟨fun k s hk => h k s (hsubs ▸ hk), fun _ _ _ => by rw [hsubs]⟩⟩

/-- The call for the first of the rows fails: statement `n` under the plan, or Stripe does not
know the subscription. -/
def firstCancelFails (plan : List (Option Err)) (n : Nat) (w : World)
    (rows : List (Id × Subscription)) : Bool :=
  rows.head?.any (fun r => (plan[n]?).join.isSome ||
    (w.stripe.get? r.2.stripeSubscriptionId).isNone)

/-- Broken off by Stripe, the request leaves the truth exactly when its first call fails. -/
def BreaksOff {α : Type} (plan : List (Option Err)) (n : Nat) (rows : List (Id × Subscription))
    (p : Req α) (w : World) : Prop :=
  (p.runFaulty Stmt.exec plan w).1 = .error stripeCancellationFailed →
    (Truthful (p.sentFaulty Stmt.exec plan w) w (p.runFaulty Stmt.exec plan w).2 ↔
      firstCancelFails plan n w rows = true)

section Programs

variable {α β : Type} {plan : List (Option Err)} {n : Nat} {rows : List (Id × Subscription)}
    {w : World}

theorem BreaksOff.throw {key : String} {status : Nat} {params : List (String × Param)}
    (hkey : key ≠ "errors.stripeCancellationFailed") :
    BreaksOff plan n rows (Prog.throw (httpError key status params) : Req α) w :=
  fun h => absurd (Err.http.inj (Except.error.inj h)).1 hkey

theorem notMem_tail (hplan : some stripeCancellationFailed ∉ plan) :
    some stripeCancellationFailed ∉ plan.tail :=
  fun h => hplan (List.mem_of_mem_tail h)

theorem BreaksOff.before {l : Stmt} {view : World → β} {k : β → Req α}
    (hplan : some stripeCancellationFailed ∉ plan) (hidle : l.exec w = .ok w)
    (hl : ∀ sid, l ≠ .stripeCancel sid) (h : BreaksOff plan.tail n rows (k (view w)) w) :
    BreaksOff plan (n + 1) rows ((Prog.send l view).bind k) w := by
  unfold BreaksOff firstCancelFails at h ⊢
  rw [Prog.send_bind]
  simp only [Prog.runFaulty, Prog.sentFaulty]
  cases hhead : plan.head?.join with
  | some e =>
    intro hended
    cases Except.error.inj hended
    exact absurd (List.mem_of_head? (Option.join_eq_some_iff.mp hhead)) hplan
  | none =>
    simp only [hidle]
    intro hended
    rw [← List.getElem?_tail, ← h hended]
    have hsame : ∀ sid, .stripeCancel sid ∈ l :: (k (view w)).sentFaulty Stmt.exec plan.tail w ↔
        .stripeCancel sid ∈ (k (view w)).sentFaulty Stmt.exec plan.tail w := fun sid => by
      simp [Ne.symm (hl sid)]
    exact ⟨fun htrue => htrue.of_calls hsame, fun htrue => htrue.of_calls fun sid =>
      (hsame sid).symm⟩

theorem cancels_subscriptions {k : Unit → Req α}
    (hk : ∀ plan w, some stripeCancellationFailed ∉ plan →
    ((k ()).runFaulty Stmt.exec plan w).1 ≠ .error stripeCancellationFailed) (rows :
    List (Id × Subscription)) (hplan : some stripeCancellationFailed ∉ plan)
    (hended : (((cancelAtStripe rows).bind k).runFaulty Stmt.exec plan w).1 =
      .error stripeCancellationFailed) :
    (((cancelAtStripe rows).bind k).runFaulty Stmt.exec plan w).2.subscriptions =
      w.subscriptions := by
  induction rows generalizing plan w with
  | nil => exact absurd hended (hk plan w hplan)
  | cons r rest ih =>
    have hstep : (cancelAtStripe (r :: rest)).bind k =
      .stmt (.stripeCancel r.2.stripeSubscriptionId)
        (fun _ => (cancelAtStripe rest).bind k) (fun _ => .throw stripeCancellationFailed) := rfl
    rw [hstep] at hended ⊢
    simp only [Prog.runFaulty] at hended ⊢
    split
    · rfl
    · rename_i hhead
      rw [hhead] at hended
      cases hexec : (Stmt.stripeCancel r.2.stripeSubscriptionId).exec w with
      | error e => rfl
      | ok w₁ =>
        rw [hexec] at hended
        exact (ih (notMem_tail hplan) hended).trans (exec_effect hexec).subscriptions

theorem BreaksOff.cancels {k : Unit → Req α} (hk : ∀ plan w, some stripeCancellationFailed ∉ plan →
    ((k ()).runFaulty Stmt.exec plan w).1 ≠ .error stripeCancellationFailed)
    (hplan : some stripeCancellationFailed ∉ plan)
    (hrows : ∀ r ∈ rows, w.subscriptions.get? r.1 = some r.2 ∧ r.2.status ≠ .canceled) :
    BreaksOff plan 0 rows ((cancelAtStripe rows).bind k) w := by
  cases rows with
  | nil => exact fun hended => absurd hended (hk plan w hplan)
  | cons r rest =>
    intro hended
    have hsubs := cancels_subscriptions hk (r :: rest) hplan hended
    have hstep : (cancelAtStripe (r :: rest)).bind k =
      .stmt (.stripeCancel r.2.stripeSubscriptionId)
        (fun _ => (cancelAtStripe rest).bind k) (fun _ => .throw stripeCancellationFailed) := rfl
    rw [hstep] at hsubs ⊢
    simp only [firstCancelFails, List.head?_cons, Option.any_some, ← List.head?_eq_getElem?]
    simp only [Prog.runFaulty, Prog.sentFaulty] at hsubs ⊢
    rw [truthful_iff hsubs]
    cases hhead : plan.head?.join with
    | some e => simp
    | none =>
      cases hexec : (Stmt.stripeCancel r.2.stripeSubscriptionId).exec w with
      | error e =>
        have hmissing : w.stripe.get? r.2.stripeSubscriptionId = none := by
          simp only [Stmt.exec] at hexec
          split at hexec
          · cases hexec
          · rename_i hunknown
            simpa using hunknown
        simp [hmissing]
      | ok w₁ =>
        have hknown : (w.stripe.get? r.2.stripeSubscriptionId).isNone = false := by
          simp only [Stmt.exec] at hexec
          split at hexec
          · rename_i hknown
            simpa using hknown
          · cases hexec
        obtain ⟨hrow, hlive⟩ := hrows r (.head _)
        simp only [hknown, Option.isSome_none, Bool.or_false, Bool.false_eq_true, iff_false]
        exact fun htrue => hlive (htrue r.1 r.2 hrow (.head _))

def Stmt.endsDeletion : Stmt → Bool
  | .read | .subscriptionCancel .. | .organizationUpdate .. | .userDelete _ => true
  | _ => false

theorem endsDeletion_error {l : Stmt} {e : Err} (hl : l.endsDeletion = true)
    (h : l.exec w = .error e) :
    e ≠ stripeCancellationFailed := by
  have hprisma : ∃ code, e = .prisma code := by
    cases l with
    | read | subscriptionCancel => cases h
    | userDelete id =>
      simp only [Stmt.exec, World.require] at h
      split at h
      · cases h
      · exact ⟨_, (Except.error.inj h).symm⟩
    | organizationUpdate id d =>
      simp only [Stmt.exec] at h
      split at h
      · exact ⟨_, (Except.error.inj h).symm⟩
      · split at h
        · exact ⟨_, (Except.error.inj h).symm⟩
        · cases h
    | _ => cases hl
  obtain ⟨code, rfl⟩ := hprisma
  intro h
  cases h

theorem ends_otherwise {p : Req α} (hp : p.Plain)
    (hsends : p.Sends (fun l => l.endsDeletion = true)) (plan : List (Option Err)) (w : World)
    (hplan : some stripeCancellationFailed ∉ plan) :
    (p.runFaulty Stmt.exec plan w).1 ≠ .error stripeCancellationFailed := fun hended =>
  hp.thrown hsends (fun _ _ _ hl h => endsDeletion_error hl h)
    (fun _ he heq => hplan (heq ▸ he)) hended rfl

variable {env : Env}

def World.liveOf (w : World) (orgId : Id) : List (Id × Subscription) :=
  w.subscriptions.filter
    (fun _ s => s.organizationId == some orgId && liveSubscriptionStatuses.contains s.status)

theorem live_ne_canceled {s : Subscription}
    (h : liveSubscriptionStatuses.contains s.status = true) :
    s.status ≠ .canceled := by
  intro heq
  rw [heq] at h
  cases h

def EndsPlain (p : Req α) : Prop := p.Plain ∧ p.Sends (fun l => l.endsDeletion = true)

theorem EndsPlain.send {l : Stmt} {view : World → α} (hl : l.endsDeletion = true) :
    EndsPlain (Prog.send l view : Req α) := ⟨.send, .send hl⟩

theorem EndsPlain.bind {p : Req β} {k : β → Req α} (hp : EndsPlain p) (hk : ∀ b, EndsPlain (k b)) :
    EndsPlain (p.bind k) :=
  ⟨hp.1.bind fun b => (hk b).1, .bind hp.2 fun b => (hk b).2⟩

theorem EndsPlain.when {c : Bool} {p : Req Unit} (hp : EndsPlain p) :
    EndsPlain (SaasBackend.when c p) := by
  cases c with
  | false => exact ⟨trivial, trivial⟩
  | true => exact hp

theorem deleteOrganization_breaksOff (hplan : some stripeCancellationFailed ∉ plan) (orgId : Id) :
    BreaksOff plan 1 (w.liveOf orgId) (deleteOrganization env orgId) w := by
  have hrest : EndsPlain (date.bind fun now =>
      (execute (.organizationUpdate orgId { deletedAt := some (some now) })).bind fun _ =>
        .ret (OrgReply.message "messages.organizationDeletedSuccessfully")) :=
    .bind (.send rfl) fun _ => .bind (.send rfl) fun _ => ⟨trivial, trivial⟩
  unfold deleteOrganization
  cases hstripe : env.stripeConfigured with
  | false => exact fun hended => absurd hended (ends_otherwise hrest.1 hrest.2 plan w hplan)
  | true =>
    simp only [SaasBackend.when, if_true, Prog.bind_eq, Prog.bind_assoc]
    refine .before hplan rfl (by simp) (.cancels (fun plan' w' hplan' => ?_) (notMem_tail hplan)
      fun r hr => ?_)
    · have hmark : ∀ now,
          EndsPlain (execute (.subscriptionCancel ((w.liveOf orgId).map (·.1)) now)) :=
        fun _ => .send rfl
      have hend := EndsPlain.bind (.when (c := !(w.liveOf orgId).isEmpty)
        (.bind (.send (by rfl) : EndsPlain date) hmark)) fun _ => hrest
      exact ends_otherwise hend.1 hend.2 plan' w' hplan'
    · obtain ⟨hrow, hlive⟩ := Table.mem_filter.mp hr
      exact ⟨hrow, live_ne_canceled (Bool.and_eq_true .. ▸ hlive).2⟩

/-- The statements of `deleteAccount` before its first call; the administrators are counted
for one of them. -/
def World.beforeCancels (w : World) (userId : Id) : Nat :=
  if ((w.users.get? userId).map (·.role)) = some .admin then 5 else 4

theorem deleteAccount_breaksOff (hplan : some stripeCancellationFailed ∉ plan) (userId : Id)
    (password : String) :
    BreaksOff plan (w.beforeCancels userId) (w.subscriptionsOf userId)
      (deleteAccount env userId password) w := by
  have hrest : ∀ email : String, EndsPlain ((execute (.userDelete userId)).bind fun _ =>
      .ret ("messages.accountDeletedSuccessfully", email)) := fun _ => .bind (.send rfl) fun _ =>
      ⟨trivial, trivial⟩
  have hcalls : ∀ (plan : List (Option Err)) (email : String),
    some stripeCancellationFailed ∉ plan →
      BreaksOff plan 2 (w.subscriptionsOf userId)
        ((query (·.blockingOrgs userId)).bind fun blocking =>
        if blocking ≠ [] then
          Prog.throw (httpError "errors.cannotDeleteAccountOwnsOrgWithMembers" 409
            [("organizations", .text (", ".intercalate blocking))])
        else (SaasBackend.when env.stripeConfigured
            ((query (·.subscriptionsOf userId)).bind cancelAtStripe)).bind fun _ =>
          (execute (.userDelete userId)).bind fun _ =>
          .ret ("messages.accountDeletedSuccessfully", email)) w := by
    intro plan email hplan
    refine .before hplan rfl (by simp) ?_
    split
    · exact .throw (by decide)
    · cases env.stripeConfigured with
      | false =>
        exact fun hended =>
          absurd hended (ends_otherwise (hrest email).1 (hrest email).2 _ w (notMem_tail hplan))
      | true =>
        simp only [SaasBackend.when, if_true, Prog.bind_assoc]
        refine .before (notMem_tail hplan) rfl (by simp) (.cancels (fun plan' w' hplan' => ?_)
          (notMem_tail (notMem_tail hplan)) fun r hr => ?_)
        · exact ends_otherwise (hrest email).1 (hrest email).2 plan' w' hplan'
        · obtain ⟨hrow, hlive⟩ := Table.mem_filter.mp hr
          exact ⟨hrow, live_ne_canceled (Bool.and_eq_true .. ▸ hlive).1⟩
  unfold deleteAccount
  obtain ⟨m, hm, hn⟩ : ∃ m,
    m = (if ((w.users.get? userId).map (·.role)) = some .admin then 1 else 0) ∧
      w.beforeCancels userId = m + 2 + 1 + 1 := by
    refine ⟨_, rfl, ?_⟩
    unfold World.beforeCancels
    split <;> rfl
  rw [hn]
  refine .before hplan rfl (by simp) ?_
  split
  · exact .throw (by decide)
  · rename_i user hfound
    obtain ⟨hrow, _⟩ := Option.filter_eq_some_iff.mp hfound
    rw [hrow, Option.map_some] at hm
    split
    · exact .throw (by decide)
    · refine .before (notMem_tail hplan) rfl (by simp) ?_
      split
      · exact .throw (by decide)
      · by_cases hadmin : user.role = .admin
        · rw [if_pos (congrArg some hadmin)] at hm
          subst hm
          rw [decide_eq_true hadmin]
          refine .before (notMem_tail (notMem_tail hplan)) rfl (by simp) ?_
          simp only [Prog.bind_eq, Prog.pure_eq]
          split
          · exact .throw (by decide)
          · exact hcalls _ user.email (notMem_tail (notMem_tail (notMem_tail hplan)))
        · rw [if_neg (fun h => hadmin (Option.some.inj h))] at hm
          subst hm
          rw [decide_eq_false hadmin]
          exact hcalls _ user.email (notMem_tail (notMem_tail hplan))

end Programs

/-- A deletion that Stripe breaks off leaves truthful rows exactly when the first call of its
loop is the one that fails. -/
theorem broken_off_truthful_iff (env : Env) (w : World) {plan : List (Option Err)}
    (hplan : some stripeCancellationFailed ∉ plan) :
    (∀ orgId, BreaksOff plan 1 (w.liveOf orgId) (deleteOrganization env orgId) w) ∧
      ∀ userId password,
        BreaksOff plan (w.beforeCancels userId) (w.subscriptionsOf userId)
        (deleteAccount env userId password) w :=
  ⟨deleteOrganization_breaksOff hplan, deleteAccount_breaksOff hplan⟩

section Sample

def orgSubscription (sid : Id) : Subscription where
  organizationId := some 3
  planId := 2
  stripeSubscriptionId := sid
  stripeCustomerId := 8
  status := .active

def twiceBilledWorld : World where
  users := (∅ : Table User).insert 1 { email := "a@x.io", password := some "pw" }
  organizations := (∅ : Table Organization).insert 3 { name := "A", slug := "a", ownerId := 1 }
  subscriptions :=
    ((∅ : Table Subscription).insert 4 (orgSubscription 7)).insert 5 (orgSubscription 9)
  stripe := ((∅ : Table StripeSub).insert 7 { id := 7, customer := 8, status := .active }).insert 9
    { id := 9, customer := 8, status := .active }
  nonce := 10

def stripeAway (n : Nat) : List (Option Err) := List.replicate n none ++ [some (.outage "stripe")]

theorem broken_off_truthful_first :
    Truthful ((deleteOrganization sampleEnv 3).sentFaulty Stmt.exec (stripeAway 1) twiceBilledWorld)
      twiceBilledWorld
      ((deleteOrganization sampleEnv 3).runFaulty Stmt.exec (stripeAway 1) twiceBilledWorld).2 :=
  ((broken_off_truthful_iff sampleEnv twiceBilledWorld
    (by decide : some stripeCancellationFailed ∉ stripeAway 1)).1 3 rfl).mpr rfl

/-- The second call fails: subscription 7 is cancelled at Stripe and ACTIVE here. -/
theorem broken_off_untruthful :
    (((deleteOrganization sampleEnv 3).runFaulty Stmt.exec (stripeAway 2) twiceBilledWorld).1 =
        .error stripeCancellationFailed ∧
      ¬ Truthful ((deleteOrganization sampleEnv 3).sentFaulty Stmt.exec
        (stripeAway 2) twiceBilledWorld) twiceBilledWorld
        ((deleteOrganization sampleEnv 3).runFaulty Stmt.exec (stripeAway 2) twiceBilledWorld).2) ∧
      ((deleteAccount sampleEnv 1 "pw").runFaulty Stmt.exec (stripeAway 5) twiceBilledWorld).1 =
          .error stripeCancellationFailed ∧
        ¬ Truthful ((deleteAccount sampleEnv 1 "pw").sentFaulty Stmt.exec
          (stripeAway 5) twiceBilledWorld) twiceBilledWorld
          ((deleteAccount sampleEnv 1 "pw").runFaulty Stmt.exec
            (stripeAway 5) twiceBilledWorld).2 := by
  refine ⟨⟨rfl, fun h => ?_⟩, rfl, fun h => ?_⟩
  · have hmarked := h.cancelled 4 (orgSubscription 7) rfl (.tail _ (.head _))
    cases hmarked
  · have hmarked :=
      h.cancelled 4 (orgSubscription 7) rfl (.tail _ (.tail _ (.tail _ (.tail _ (.head _)))))
    cases hmarked

end Sample

end SaasBackend
