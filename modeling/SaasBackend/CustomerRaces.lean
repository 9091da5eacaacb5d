import SaasBackend.StatementEffects
import SaasBackend.StripeCheckout

set_option autoImplicit false

namespace SaasBackend
open Keyed Handler

namespace Checkout

abbrev CheckoutConfig := Config CheckoutBody Billing Err BillingStmt (String × String)
abbrev CheckoutEvent := Event CheckoutBody Billing BillingStmt

def neverMissing (s : Billing) : BillingStmt → Bool
  | .customersRetrieve id =>
    match s.lookup id with
    | .resourceMissing => false
    | _ => true
  | _ => true

abbrev CheckoutStep (env : Env) (payer : Payer) : CheckoutConfig → CheckoutEvent →
    CheckoutConfig → Prop :=
  Step BillingStmt.exec (checkoutFor env payer) (fun _ => True) (fun s l => neverMissing s l = true)

def InHand (payer : Payer) (p : BillingReq (String × String)) : Prop :=
  ∃ id, p.next = some (.prisma (payer.persist id))

/-- A customer is created only while none is stored and no request has one in hand. -/
def CreatesAlone (payer : Payer) (c : CheckoutConfig) : CheckoutEvent → Prop
  | .fire _ (.customersCreate _) s _ =>
    s.failure = none → payer.stored s.world = none ∧ ∀ q ∈ c.pool, ¬ InHand payer q.2
  | _ => True

/-- Since `s₀` one customer has been created at most, and every checkout session is of the
stored customer, which a portal session is then opened for. -/
structure OneCustomer (env : Env) (payer : Payer) (s₀ s : Billing) : Prop where
  created : s.customers.length ≤ s₀.customers.length + 1
  used : ∀ session ∈ s.sessions.drop s₀.sessions.length,
    payer.stored s.world = some session.customer
  portal : ∀ session ∈ s.sessions.drop s₀.sessions.length, ∀ returnUrl,
    .portalSessionsCreate session.customer returnUrl ∈
      (portalFor env payer returnUrl).sent BillingStmt.exec s

def Payer.Unclashed (w : World) : Payer → Prop
  | .user _ => w.Unclashed
  | .organization _ =>
      ∀ i j o o', w.organizations.get? i = some o → w.organizations.get? j = some o' →
    o.slug = o'.slug → i = j

section Persist

variable {w : World} {payer : Payer} {row : PayerRow}

theorem persist_ok (hw : payer.Unclashed w) (hrow : payer.row w = some row) (id : Id) :
    ∃ w', (payer.persist id).exec w = .ok w' ∧ payer.Unclashed w' ∧
      payer.row w' = some { row with stripeCustomerId := some id } := by
  cases payer with
  | user u =>
    obtain ⟨x, hx, rfl⟩ := Option.map_eq_some_iff.mp hrow
    have hclash : ∀ k v, w.users.get? k = some v → k ≠ u →
        (UserPatch.apply { stripeCustomerId := some id } x).clash v = false :=
      fun k v hk hne => hw u k x v hx hk (Ne.symm hne)
    refine ⟨_, setUser_eq_ok hx hclash, World.Unclashed.update hw hx hclash, ?_⟩
    simp only [Payer.row, Table.get?_update, if_true, hx, Option.map_some]
    rfl
  | organization o =>
    obtain ⟨x, hx, rfl⟩ := Option.map_eq_some_iff.mp hrow
    obtain ⟨hx, hlive⟩ := Option.filter_eq_some_iff.mp hx
    have hfree : w.organizations.any (fun k o' => k != o &&
        (OrganizationPatch.apply { stripeCustomerId := some id } x).slug == o'.slug) = false := by
      refine Table.any_eq_false.mpr fun k o' hk => ?_
      simp only [OrganizationPatch.apply, Option.getD_none, Bool.and_eq_false_imp, bne_iff_ne,
        beq_eq_false_iff_ne]
      exact fun hne heq => hne (hw k o o' x hk hx heq.symm)
    have hslugs : ∀ i a, (w.organizations.update o (fun x =>
        ({ OrganizationPatch.apply { stripeCustomerId := some id } x with updatedAt := w.now } :
          Organization))).get? i = some a →
        ∃ a', w.organizations.get? i = some a' ∧ a.slug = a'.slug := by
      intro i a ha
      rw [Table.get?_update] at ha
      split at ha
      · obtain ⟨a', ha', rfl⟩ := Option.map_eq_some_iff.mp ha
        exact ⟨a', ha', rfl⟩
      · exact ⟨a, ha, rfl⟩
    refine ⟨{ w with organizations := w.organizations.update o (fun x =>
      { OrganizationPatch.apply { stripeCustomerId := some id } x with updatedAt := w.now }) },
      ?_, ?_, ?_⟩
    · simp only [Payer.persist, Stmt.exec, hx, hfree]
      rfl
    · intro i j a b ha hb hslug
      obtain ⟨a', ha', hslug₁⟩ := hslugs i a ha
      obtain ⟨b', hb', hslug₂⟩ := hslugs j b hb
      exact hw i j a' b' ha' hb' (hslug₁.symm.trans (hslug.trans hslug₂))
    · simp only [Payer.row, Table.get?_update, if_true, hx, Option.map_some]
      exact Option.map_eq_some_iff.mpr ⟨_, Option.filter_eq_some_iff.mpr ⟨rfl, hlive⟩, rfl⟩

end Persist

variable {env : Env} {payer : Payer} {n₀ : Nat}

/-- Where a request without a customer in hand stands between two of its statements, when `n₀`
customers were there at the start. What it found to be none may be stored meanwhile, and is
then the id of a new customer. -/
inductive Stage (env : Env) (payer : Payer) (n₀ : Nat) (s : Billing) :
    BillingReq (String × String) → Prop where
  | ended {p} : p.isDone → Stage env payer n₀ s p
  | arrived (body) : Stage env payer n₀ s (checkoutFor env payer body)
  | planned (plan body) : Stage env payer n₀ s (checkoutOf env payer plan body)
  | retrieving (plan body row id) : env.stripeConfigured = true → row.stripeCustomerId = some id →
      payer.stored s.world = some id →
      Stage env payer n₀ s ((resolveStripeCustomerId payer row).bind (openSession payer plan body))
  | creating (plan body row) : env.stripeConfigured = true → (payer.row s.world).isSome = true →
      (payer.stored s.world = none ∨ n₀ < s.customers.length) →
      Stage env payer n₀ s ((createCustomer payer row).bind (openSession payer plan body))
  | paying (plan body id) : env.stripeConfigured = true → payer.stored s.world = some id →
      Stage env payer n₀ s (openSession payer plan body id)

def storing (payer : Payer) (plan : Plan) (body : CheckoutBody) (id : Id) :
    BillingReq (String × String) :=
  (execute (payer.persist id)).bind fun _ => openSession payer plan body id

structure Holds (env : Env) (payer : Payer) (n₀ : Nat) (s : Billing)
    (p : BillingReq (String × String)) : Prop where
  shape : ∃ plan body id, p = storing payer plan body id
  configured : env.stripeConfigured = true
  row : (payer.row s.world).isSome = true
  new : n₀ < s.customers.length

/-- What a statement of a request without a customer in hand does to the store and to what is
left of the request. -/
inductive Moves (env : Env) (payer : Payer) (n₀ : Nat) (s : Billing) :
    BillingStmt → Billing → BillingReq (String × String) → Prop where
  | looks {l s' p} : s'.world = s.world → s'.customers = s.customers → s'.sessions = s.sessions →
      Stage env payer n₀ s' p → Moves env payer n₀ s l s' p
  | creates (plan body data) : env.stripeConfigured = true → s.failure = none →
      (payer.row s.world).isSome = true → (payer.stored s.world = none ∨ n₀ < s.customers.length) →
      Moves env payer n₀ s (.customersCreate data)
        { s.called with customers := s.customers ++ [data] }
        (storing payer plan body s.customers.length)
  | opens {p} (params) : env.stripeConfigured = true →
      payer.stored s.world = some params.customer → p.isDone →
      Moves env payer n₀ s (.checkoutSessionsCreate params)
        { s.called with sessions := s.sessions ++ [params] } p

section Moves

variable {s s' : Billing} {p : BillingReq (String × String)} {l : BillingStmt}

theorem not_inHand_next (h : ∀ l, p.next = some (.prisma l) → l = .read) : ¬ InHand payer p := by
  rintro ⟨id, hnext⟩
  have hread := h _ hnext
  cases payer <;> cases hread

theorem Stage.not_inHand (h : Stage env payer n₀ s p) : ¬ InHand payer p := by
  refine not_inHand_next fun l hl => ?_
  cases h with
  | ended hdone =>
    cases p with
    | stmt => cases hdone
    | ret | throw => cases hl
  | arrived body =>
    cases hl
    rfl
  | planned plan body =>
    unfold checkoutOf at hl
    split at hl <;> cases hl
    rfl
  | retrieving plan body row id _ hid _ =>
    unfold resolveStripeCustomerId at hl
    rw [hid] at hl
    cases hl
  | creating plan body row => cases hl
  | paying plan body id => cases hl

theorem Stage.moves {n : Billing → BillingReq (String × String)}
    {k : Err → BillingReq (String × String)} (h : Stage env payer n₀ s p) (hp : p = .stmt l n k)
    (hl : neverMissing s l = true) :
    ∃ s', l.exec s = .ok s' ∧ Moves env payer n₀ s l s' (n s) := by
  cases h with
  | ended hdone =>
    subst hp
    cases hdone
  | arrived body =>
    obtain ⟨next, hstep, hnext⟩ : ∃ next : Billing → BillingReq (String × String),
        checkoutFor env payer body = .stmt (.prisma .read) next .throw ∧
          next s = ((s.world.plans.get? body.planId).filter (·.active)).elim
            (.throw (httpError "errors.planNotFound" 404)) fun plan =>
              checkoutOf env payer plan body := by
      refine ⟨_, rfl, ?_⟩
      simp only [Prog.ret_bind]
      cases (s.world.plans.get? body.planId).filter (·.active) <;> rfl
    rw [hstep] at hp
    cases hp
    refine ⟨s, rfl, .looks rfl rfl rfl ?_⟩
    rw [hnext]
    cases (s.world.plans.get? body.planId).filter (·.active) with
    | none => exact .ended trivial
    | some plan => exact .planned plan body
  | planned plan body =>
    unfold checkoutOf at hp
    cases hconf : env.stripeConfigured with
    | false =>
      rw [hconf] at hp
      cases hp
    | true =>
      obtain ⟨next, hstep, hnext⟩ : ∃ next : Billing → BillingReq (String × String),
          checkoutOf env payer plan body = .stmt (.prisma .read) next .throw ∧
            next s = (payer.row s.world).elim (.throw payer.notFound) fun row =>
              (resolveStripeCustomerId payer row).bind (openSession payer plan body) := by
        unfold checkoutOf
        rw [hconf]
        refine ⟨_, rfl, ?_⟩
        simp only [Prog.ret_bind]
        cases payer.row s.world <;> rfl
      unfold checkoutOf at hstep
      rw [hstep] at hp
      cases hp
      refine ⟨s, rfl, .looks rfl rfl rfl ?_⟩
      rw [hnext]
      cases hrow : payer.row s.world with
      | none => exact .ended trivial
      | some row =>
        have hstored : payer.stored s.world = row.stripeCustomerId := by
          rw [Payer.stored, hrow, Option.bind_some]
        cases hid : row.stripeCustomerId with
        | some id => exact .retrieving plan body row id hconf hid (hstored.trans hid)
        | none =>
          have hcreate : resolveStripeCustomerId payer row = createCustomer payer row := by
            rw [resolveStripeCustomerId, hid]
          have hstage : Stage env payer n₀ _ _ :=
            .creating plan body row hconf (by rw [hrow]; rfl) (.inl (hstored.trans hid))
          rw [← hcreate] at hstage
          exact hstage
  | retrieving plan body row id hconf hid hstored =>
    obtain ⟨next, hstep, hfound, hfailed⟩ : ∃ next : Billing → BillingReq (String × String),
        (resolveStripeCustomerId payer row).bind (openSession payer plan body) =
          .stmt (.customersRetrieve id) next .throw ∧
        (s.lookup id = .found → next s = openSession payer plan body id) ∧
        ∀ err, s.lookup id = .failed err → next s = .throw err := by
      rw [resolveStripeCustomerId, hid]
      refine ⟨_, rfl, fun hlookup => ?_, fun err hlookup => ?_⟩
      · simp only [Prog.ret_bind, hlookup]
        rfl
      · simp only [Prog.ret_bind, hlookup]
        rfl
    rw [hstep] at hp
    cases hp
    refine ⟨s.called, rfl, .looks rfl rfl rfl ?_⟩
    simp only [neverMissing] at hl
    cases hlookup : s.lookup id with
    | found =>
      rw [hfound hlookup]
      exact .paying plan body id hconf hstored
    | resourceMissing =>
      rw [hlookup] at hl
      cases hl
    | failed err =>
      rw [hfailed err hlookup]
      exact .ended trivial
  | creating plan body row hconf hrow hnone =>
    cases hp
    cases hfail : s.failure with
    | some err =>
      refine ⟨s.called, by simp only [BillingStmt.exec, hfail]; rfl, .looks rfl rfl rfl ?_⟩
      simp only [Billing.answer, hfail]
      exact .ended trivial
    | none =>
      refine ⟨_, exec_customersCreate hfail _, ?_⟩
      simp only [Billing.answer, hfail]
      exact .creates plan body _ hconf hfail hrow hnone
  | paying plan body id hconf hstored =>
    cases hp
    cases hfail : s.failure with
    | some err =>
      refine ⟨s.called, by simp only [BillingStmt.exec, hfail]; rfl, .looks rfl rfl rfl ?_⟩
      simp only [Billing.answer, hfail]
      exact .ended trivial
    | none =>
      refine ⟨_, exec_checkoutSessionsCreate hfail _, ?_⟩
      simp only [Billing.answer, hfail]
      exact .opens _ hconf hstored trivial

theorem Holds.moves {n : Billing → BillingReq (String × String)}
    {k : Err → BillingReq (String × String)} (h : Holds env payer n₀ s p) (hp : p = .stmt l n k)
    (hunclashed : payer.Unclashed s.world) :
    ∃ id w, l.exec s = .ok { s with world := w } ∧ payer.Unclashed w ∧ payer.stored w = some id ∧
      Stage env payer n₀ { s with world := w } (n s) := by
  obtain ⟨plan, body, id, rfl⟩ := h.shape
  cases hp
  obtain ⟨row, hrow⟩ := Option.isSome_iff_exists.mp h.row
  obtain ⟨w, hexec, hw, hrow'⟩ := persist_ok hunclashed hrow id
  have hstored : payer.stored w = some id := by rw [Payer.stored, hrow', Option.bind_some]
  exact ⟨id, w, by simp only [BillingStmt.exec, hexec]; rfl, hw, hstored,
    .paying plan body id h.configured hstored⟩

end Moves

/-- What holds of a run from `s₀` on as long as every customer is created alone. -/
structure Sound (env : Env) (payer : Payer) (s₀ : Billing) (c : CheckoutConfig) : Prop where
  unclashed : payer.Unclashed c.store.world
  requests : ∀ q ∈ c.pool, Stage env payer s₀.customers.length c.store q.2 ∨
    Holds env payer s₀.customers.length c.store q.2
  /-- one request at most has a customer in hand, and then none is stored -/
  single : ∀ (i j : Nat) (q q' : CheckoutBody × BillingReq (String × String)), c.pool[i]? = some q →
    c.pool[j]? = some q' → InHand payer q.2 → InHand payer q'.2 → i = j
  unstored : ∀ q ∈ c.pool, InHand payer q.2 → payer.stored c.store.world = none
  /-- a new customer is in hand or stored -/
  bare : payer.stored c.store.world = none → (∀ q ∈ c.pool, ¬ InHand payer q.2) →
    c.store.customers.length = s₀.customers.length
  created : s₀.customers.length ≤ c.store.customers.length ∧
    c.store.customers.length ≤ s₀.customers.length + 1
  sessions : s₀.sessions.length ≤ c.store.sessions.length
  used : ∀ session ∈ c.store.sessions.drop s₀.sessions.length,
    payer.stored c.store.world = some session.customer ∧ env.stripeConfigured = true

section Run

variable {s₀ : Billing} {c c' : CheckoutConfig} {e : CheckoutEvent}

structure Onward (payer : Payer) (n₀ : Nat) (s s' : Billing) : Prop where
  stored : ∀ id, payer.stored s.world = some id → payer.stored s'.world = some id
  row : (payer.row s.world).isSome = true → (payer.row s'.world).isSome = true
  new : payer.stored s.world = none → payer.stored s'.world = none ∨ n₀ < s'.customers.length
  customers : s.customers.length ≤ s'.customers.length

theorem Onward.same {s s' : Billing} (hworld : s'.world = s.world)
    (hcustomers : s.customers.length ≤ s'.customers.length) : Onward payer n₀ s s' :=
  ⟨fun _ h => by rw [hworld, h], fun h => by rw [hworld, h],
    fun h => .inl (by rw [hworld, h]), hcustomers⟩

theorem Stage.onward {s s' : Billing} {p : BillingReq (String × String)}
    (h : Stage env payer n₀ s p) (ho : Onward payer n₀ s s') : Stage env payer n₀ s' p := by
  cases h with
  | ended hdone => exact .ended hdone
  | arrived body => exact .arrived body
  | planned plan body => exact .planned plan body
  | retrieving plan body row id hconf hid hstored =>
    exact .retrieving plan body row id hconf hid (ho.stored id hstored)
  | creating plan body row hconf hrow hnone =>
    refine .creating plan body row hconf (ho.row hrow) ?_
    rcases hnone with hnone | hnew
    · exact ho.new hnone
    · exact .inr (Nat.lt_of_lt_of_le hnew ho.customers)
  | paying plan body id hconf hstored => exact .paying plan body id hconf (ho.stored id hstored)

theorem Holds.onward {s s' : Billing} {p : BillingReq (String × String)}
    (h : Holds env payer n₀ s p) (ho : Onward payer n₀ s s') : Holds env payer n₀ s' p :=
  ⟨h.shape, h.configured, ho.row h.row, Nat.lt_of_lt_of_le h.new ho.customers⟩

theorem Holds.inHand {s : Billing} {p : BillingReq (String × String)} (h : Holds env payer n₀ s p) :
    InHand payer p := by
  obtain ⟨_, _, id, rfl⟩ := h.shape
  exact ⟨id, rfl⟩

theorem Sound.arrive (h : Sound env payer s₀ c) (body : CheckoutBody) :
    Sound env payer s₀ (c.arrive (checkoutFor env payer) body) := by
  have hnew : ¬ InHand payer (checkoutFor env payer body) :=
    (Stage.arrived body : Stage env payer s₀.customers.length c.store _).not_inHand
  have hmem : ∀ q ∈ (c.arrive (checkoutFor env payer) body).pool, q ∈ c.pool ∨
      q = (body, checkoutFor env payer body) :=
    fun q hq => by simpa [Config.arrive] using hq
  have hold : ∀ (i : Nat) q, (c.arrive (checkoutFor env payer) body).pool[i]? = some q →
    InHand payer q.2 →
      c.pool[i]? = some q := fun i q hq hhand => by
    rcases Config.arrive_pool _ hq with hq | ⟨_, rfl⟩
    · exact hq
    · exact absurd hhand hnew
  refine ⟨h.unclashed, fun q hq => ?_, fun i j q q' hq hq' hhand hhand' => ?_, fun q hq hhand => ?_,
    fun hnone hfree => ?_, h.created, h.sessions, h.used⟩
  · rcases hmem q hq with hq | rfl
    · exact h.requests q hq
    · exact .inl (.arrived body)
  · exact h.single i j q q' (hold i q hq hhand) (hold j q' hq' hhand') hhand hhand'
  · rcases hmem q hq with hq | rfl
    · exact h.unstored q hq hhand
    · exact absurd hhand hnew
  · exact h.bare hnone fun q hq => hfree q (by simp [Config.arrive, hq])

section Fire

variable {i : Nat} {body : CheckoutBody} {p p' : BillingReq (String × String)} {s' : Billing}

theorem mem_set_inHand (hi : c.pool[i]? = some (body, p)) (hp : ¬ InHand payer p)
    {q : CheckoutBody × BillingReq (String × String)} (hq : q ∈ c.pool) (hhand : InHand payer q.2) :
    q ∈ c.pool.set i (body, p') := by
  obtain ⟨j, hj⟩ := List.mem_iff_getElem?.mp hq
  have hne : i ≠ j := by
    rintro rfl
    cases hi.symm.trans hj
    exact hp hhand
  exact List.mem_iff_getElem?.mpr ⟨j, by rw [List.getElem?_set_ne hne, hj]⟩

theorem getElem?_set_old {j : Nat} {q : CheckoutBody × BillingReq (String × String)}
    (hp' : ¬ InHand payer p') (hj : (c.pool.set i (body, p'))[j]? = some q)
    (hhand : InHand payer q.2) : i ≠ j ∧ c.pool[j]? = some q := by
  by_cases hij : i = j
  · subst hij
    rw [List.getElem?_set_self'] at hj
    obtain ⟨_, _, rfl⟩ := Option.map_eq_some_iff.mp hj
    exact absurd hhand hp'
  · exact ⟨hij, by rwa [List.getElem?_set_ne hij] at hj⟩

theorem Sound.keeps (h : Sound env payer s₀ c) (hi : c.pool[i]? = some (body, p))
    (hp : ¬ InHand payer p) (hworld : s'.world = c.store.world)
    (hcustomers : s'.customers = c.store.customers)
    (hp' : Stage env payer s₀.customers.length s' p')
    (hsessions : s₀.sessions.length ≤ s'.sessions.length)
    (hused : ∀ session ∈ s'.sessions.drop s₀.sessions.length,
      payer.stored c.store.world = some session.customer ∧ env.stripeConfigured = true) :
    Sound env payer s₀ ⟨s', c.pool.set i (body, p')⟩ := by
  have ho : Onward payer s₀.customers.length c.store s' :=
    .same hworld (Nat.le_of_eq (by rw [hcustomers]))
  refine ⟨by rw [hworld]; exact h.unclashed, fun q hq => ?_, fun a b q q' ha hb hhand hhand' => ?_,
    fun q hq hhand => ?_, fun hnone hfree => ?_, by rw [hcustomers]; exact h.created, hsessions,
    by rw [hworld]; exact hused⟩
  · rcases List.mem_or_eq_of_mem_set hq with hq | rfl
    · exact (h.requests q hq).imp (·.onward ho) (·.onward ho)
    · exact .inl hp'
  · exact h.single a b q q' (getElem?_set_old hp'.not_inHand ha hhand).2
      (getElem?_set_old hp'.not_inHand hb hhand').2
      hhand hhand'
  · rw [hworld]
    rcases List.mem_or_eq_of_mem_set hq with hq | rfl
    · exact h.unstored q hq hhand
    · exact absurd hhand hp'.not_inHand
  · rw [hcustomers]
    exact h.bare (by rw [← hworld, hnone]) fun q hq hhand =>
      hfree q (mem_set_inHand hi hp hq hhand) hhand

theorem Sound.creates (h : Sound env payer s₀ c) (hi : c.pool[i]? = some (body, p))
    (hnone : payer.stored c.store.world = none) (hfree : ∀ q ∈ c.pool, ¬ InHand payer q.2)
    (hworld : s'.world = c.store.world)
    (hcustomers : s'.customers.length = c.store.customers.length + 1)
    (hsessions : s'.sessions = c.store.sessions) (hp' : Holds env payer s₀.customers.length s' p') :
    Sound env payer s₀ ⟨s', c.pool.set i (body, p')⟩ := by
  have hbare := h.bare hnone hfree
  have ho : Onward payer s₀.customers.length c.store s' := .same hworld (by omega)
  have hlength : s'.customers.length = s₀.customers.length + 1 := by omega
  have hlt : i < c.pool.length := (List.getElem?_eq_some_iff.mp hi).1
  have hself : ∀ {j : Nat} {q}, (c.pool.set i (body, p'))[j]? = some q → InHand payer q.2 →
      i = j := by
    intro j q hj hhand
    by_contra hne
    rw [List.getElem?_set_ne hne] at hj
    exact hfree q (List.mem_of_getElem? hj) hhand
  refine ⟨by rw [hworld]; exact h.unclashed, fun q hq => ?_, fun a b q q' ha hb hhand hhand' => ?_,
    fun q hq hhand => ?_, fun _ hfree' => ?_, ⟨hlength ▸ Nat.le_succ _, Nat.le_of_eq hlength⟩,
    by rw [hsessions]; exact h.sessions,
    by rw [hworld, hsessions]; exact h.used⟩
  · rcases List.mem_or_eq_of_mem_set hq with hq | rfl
    · exact (h.requests q hq).imp (·.onward ho) (·.onward ho)
    · exact .inr hp'
  · rw [← hself ha hhand, ← hself hb hhand']
  · rw [hworld, hnone]
  · exact absurd hp'.inHand (hfree' (body, p') (List.mem_set hlt _))

theorem Sound.stores (h : Sound env payer s₀ c) (hi : c.pool[i]? = some (body, p))
    (hp : InHand payer p) {id : Id} (hunclashed : payer.Unclashed s'.world)
    (hstored : payer.stored s'.world = some id) (hcustomers : s'.customers = c.store.customers)
    (hsessions : s'.sessions = c.store.sessions) (hp' : Stage env payer s₀.customers.length s' p') :
    Sound env payer s₀ ⟨s', c.pool.set i (body, p')⟩ := by
  have hnone := h.unstored (body, p) (List.mem_of_getElem? hi) hp
  have hrow : (payer.row s'.world).isSome = true := by
    obtain ⟨row, hrow, _⟩ := Option.bind_eq_some_iff.mp hstored
    rw [hrow]
    rfl
  have hnew : s₀.customers.length < s'.customers.length := by
    rcases h.requests (body, p) (List.mem_of_getElem? hi) with hstage | hholds
    · exact absurd hp hstage.not_inHand
    · rw [hcustomers]
      exact hholds.new
  have ho : Onward payer s₀.customers.length c.store s' :=
    ⟨fun id' hid => absurd (hnone.symm.trans hid) nofun, fun _ => hrow, fun _ => .inr hnew,
      Nat.le_of_eq (by rw [hcustomers])⟩
  have hothers : ∀ q ∈ c.pool.set i (body, p'), ¬ InHand payer q.2 := by
    intro q hq hhand
    obtain ⟨j, hj⟩ := List.mem_iff_getElem?.mp hq
    obtain ⟨hne, hold⟩ := getElem?_set_old hp'.not_inHand hj hhand
    exact hne (h.single i j _ q hi hold hp hhand)
  refine ⟨hunclashed, fun q hq => ?_, fun a b q q' ha _ hhand _ => ?_, fun q hq hhand =>
    absurd hhand (hothers q hq), fun hnone' => ?_, by
      rw [hcustomers]; exact h.created, by rw [hsessions]; exact h.sessions,
    fun session hsession => ?_⟩
  · rcases List.mem_or_eq_of_mem_set hq with hq | rfl
    · exact (h.requests q hq).imp (·.onward ho) (·.onward ho)
    · exact .inl hp'
  · exact absurd hhand (hothers q (List.mem_of_getElem? ha))
  · cases hstored.symm.trans hnone'
  · rw [hsessions] at hsession
    cases hnone.symm.trans (h.used session hsession).1

theorem Sound.fire (h : Sound env payer s₀ c) {l : BillingStmt}
    {n : Billing → BillingReq (String × String)} {k : Err → BillingReq (String × String)}
    (hi : c.pool[i]? = some (body, .stmt l n k)) (hl : neverMissing c.store l = true)
    (halone : CreatesAlone payer c (.fire i l c.store (c.advance BillingStmt.exec i).store)) :
    Sound env payer s₀ (c.advance BillingStmt.exec i) := by
  rcases h.requests _ (List.mem_of_getElem? hi) with hstage | hholds
  · obtain ⟨s', hexec, hmoves⟩ := hstage.moves rfl hl
    rw [Config.advance_ok _ hi hexec]
    generalize n c.store = p' at hmoves ⊢
    cases hmoves with
    | looks hworld hcustomers hsessions hp' =>
      exact h.keeps hi hstage.not_inHand hworld hcustomers hp' (by rw [hsessions]; exact h.sessions)
        (by rw [hsessions]; exact h.used)
    | creates plan body' data hconf hfail hrow hnone =>
      obtain ⟨hnone, hfree⟩ := halone hfail
      have hbare := h.bare hnone hfree
      refine h.creates hi hnone hfree rfl (by simp) rfl ⟨⟨plan, body', _, rfl⟩, hconf, hrow, ?_⟩
      simp [hbare]
    | opens params hconf hstored hdone =>
      refine h.keeps hi hstage.not_inHand rfl rfl (.ended hdone) ?_ fun session hsession => ?_
      · exact Nat.le_trans h.sessions (by simp)
      · have hdrop : (c.store.sessions ++ [params]).drop s₀.sessions.length =
            c.store.sessions.drop s₀.sessions.length ++ [params] :=
              List.drop_append_of_le_length h.sessions
        rw [hdrop] at hsession
        rcases List.mem_append.mp hsession with hold | hnew
        · exact h.used session hold
        · rw [List.mem_singleton.mp hnew]
          exact ⟨hstored, hconf⟩
  · obtain ⟨id, w, hexec, hunclashed, hstored, hp'⟩ := hholds.moves rfl h.unclashed
    rw [Config.advance_ok _ hi hexec]
    exact h.stores hi hholds.inHand hunclashed hstored rfl rfl hp'

end Fire

theorem portal_sent {s : Billing} {customer : Id} (hstored : payer.stored s.world = some customer)
    (hconf : env.stripeConfigured = true) (returnUrl : String) :
    .portalSessionsCreate customer returnUrl ∈ (portalFor env payer returnUrl).sent
      BillingStmt.exec s := by
  obtain ⟨row, hrow, hid⟩ := Option.bind_eq_some_iff.mp hstored
  have hsent : (portalFor env payer returnUrl).sent BillingStmt.exec s =
      [.prisma .read, .portalSessionsCreate customer returnUrl] := by
    unfold portalFor
    simp only [Prog.bind_eq, query, Prog.send_bind, Prog.sent, BillingStmt.exec, Stmt.exec,
      Except.map, hrow, hid, hconf, Bool.not_true, Bool.false_eq_true, if_false, call]
    cases hfail : s.failure <;> simp only [Billing.answer, hfail] <;> rfl
  rw [hsent]
  exact .tail _ (.head _)

theorem Sound.oneCustomer (h : Sound env payer s₀ c) : OneCustomer env payer s₀ c.store :=
  ⟨h.created.2, fun session hsession => (h.used session hsession).1, fun session hsession =>
    portal_sent (h.used session hsession).1 (h.used session hsession).2⟩

theorem Sound.step (h : Sound env payer s₀ c) (hstep : CheckoutStep env payer c e c')
    (halone : CreatesAlone payer c e) : Sound env payer s₀ c' := by
  cases hstep with
  | arrive _ => exact h.arrive _
  | fire hi hl => exact h.fire hi hl halone

theorem Sound.created_twice (h : Sound env payer s₀ c) (hstep : CheckoutStep env payer c e c')
    (halone : ¬ CreatesAlone payer c e) : s₀.customers.length + 1 < c'.store.customers.length := by
  cases hstep with
  | arrive _ => exact absurd trivial halone
  | @fire i body l n k hi hl =>
    cases l with
    | customersCreate data =>
      obtain ⟨hfail, halone⟩ := Classical.not_imp.mp halone
      have hexec := exec_customersCreate hfail data
      rw [Config.advance_ok _ hi hexec]
      have hnew : s₀.customers.length < c.store.customers.length := by
        by_contra hle
        refine halone ⟨?_, fun q hq hhand => ?_⟩
        · rcases h.requests _ (List.mem_of_getElem? hi) with hstage | hholds
          · obtain ⟨s', hexec', hmoves⟩ := hstage.moves rfl hl
            generalize n c.store = p' at hmoves
            cases hmoves with
            | creates plan body' data _ _ _ hnone => exact hnone.resolve_right hle
            | looks _ hcustomers _ _ =>
              cases hexec.symm.trans hexec'
              exact absurd (congrArg List.length hcustomers) (by simp)
          · exact absurd hholds.new hle
        · rcases h.requests q hq with hstage | hholds
          · exact hstage.not_inHand hhand
          · exact hle hholds.new
      simp only [List.length_append, List.length_singleton]
      omega
    | prisma | customersRetrieve | checkoutSessionsCreate | portalSessionsCreate =>
      exact absurd trivial halone

theorem Sound.start {s₀ : Billing} (hw : payer.Unclashed s₀.world) :
    Sound env payer s₀ ⟨s₀, []⟩ where
  unclashed := hw
  requests := nofun
  single _ _ _ _ hi := nomatch hi
  unstored := nofun
  bare _ _ := rfl
  created := ⟨Nat.le_refl _, Nat.le_succ _⟩
  sessions := Nat.le_refl _
  used session hsession := by
    rw [List.drop_length] at hsession
    cases hsession

end Run

/-- As long as every customer is created alone there is one customer for every checkout and
for the portal, and the next step keeps it so exactly when it creates none, or one alone. -/
theorem one_customer_iff (env : Env) {payer : Payer} {s₀ : Billing} (hw : payer.Unclashed s₀.world)
    {tr : List CheckoutEvent} {c : CheckoutConfig}
    (hrun : Steps (fun c e c' => CheckoutStep env payer c e c' ∧ CreatesAlone payer c e)
      ⟨s₀, []⟩ tr c) :
    OneCustomer env payer s₀ c.store ∧ ∀ e c', CheckoutStep env payer c e c' →
      (OneCustomer env payer s₀ c'.store ↔ CreatesAlone payer c e) := by
  have hsound : Sound env payer s₀ c :=
    Steps.invariant (fun _ c => Sound env payer s₀ c) (.start hw)
      (fun _ _ _ _ h hstep => h.step hstep.1 hstep.2) hrun
  refine ⟨hsound.oneCustomer, fun e c' hstep =>
    ⟨fun hone => ?_, fun halone => (hsound.step hstep halone).oneCustomer⟩⟩
  by_contra halone
  exact absurd (hsound.created_twice hstep halone) (Nat.not_lt.mpr hone.created)

section Sample

def customerlessBilling : Billing where
  world :=
    { users := (∅ : Table User).insert 1 { email := "a@x.io" }
      plans := (∅ : Table Plan).insert 2 { name := "Pro", code := "pro", stripePriceId := 3 }
      nonce := 10 }
  checkoutOf _ := ("https://checkout", "cs")
  portalOf _ := "https://portal"

def proCheckout : CheckoutBody := ⟨2, "https://ok", "https://no"⟩

def overlapping : List (CheckoutBody ⊕ Nat) :=
  [.inl proCheckout, .inl proCheckout, .inr 0, .inr 1, .inr 0, .inr 1, .inr 0, .inr 1, .inr 0,
    .inr 1, .inr 0, .inr 1]

def bought (schedule : List (CheckoutBody ⊕ Nat)) : CheckoutConfig :=
  Config.play BillingStmt.exec (checkoutFor sampleEnv (.user 1)) ⟨customerlessBilling, []⟩ schedule

theorem customerlessBilling_unclashed : (Payer.user 1).Unclashed customerlessBilling.world := by
  have honly : ∀ i u, customerlessBilling.world.users.get? i = some u → i = 1 := fun i u hi => by
    rcases Table.get?_insert_cases hi with hnone | ⟨rfl, _⟩
    · cases hnone
    · rfl
  exact fun i j u v hi hj hij => absurd ((honly i u hi).trans (honly j v hj).symm) hij

abbrev AloneStep : CheckoutConfig → CheckoutEvent → CheckoutConfig → Prop := fun c e c' =>
  CheckoutStep sampleEnv (.user 1) c e c' ∧ CreatesAlone (.user 1) c e

theorem fire_alone {c : CheckoutConfig} (i : Nat) {l : BillingStmt}
    {n : Billing → BillingReq (String × String)} {k : Err → BillingReq (String × String)}
    (hi : c.pool[i]? = some (proCheckout, .stmt l n k)) (hl : neverMissing c.store l = true)
    (halone : CreatesAlone (.user 1) c
      (.fire i l c.store (c.advance BillingStmt.exec i).store)) :
    AloneStep c (.fire i l c.store (c.advance BillingStmt.exec i).store)
      (c.advance BillingStmt.exec i) :=
  ⟨.fire hi hl, halone⟩

def inTurn : List (CheckoutBody ⊕ Nat) :=
  .inl proCheckout :: List.replicate 5 (.inr 0) ++ .inl proCheckout :: List.replicate 4 (.inr 1)

/-- The second checkout is for the customer that the first one stored. -/
theorem one_customer_iff_in_turn :
    OneCustomer sampleEnv (.user 1) customerlessBilling (bought inTurn).store ∧
      (bought inTurn).store.sessions.map (·.customer) = [0, 0] := by
  have hread : Steps AloneStep ⟨customerlessBilling, []⟩
      _ (bought [.inl proCheckout, .inr 0, .inr 0]) :=
    .snoc (.snoc (.snoc .refl ⟨.arrive trivial, trivial⟩) (fire_alone 0 rfl rfl trivial))
      (fire_alone 0 rfl rfl trivial)
  have hfree : ∀ q ∈ (bought [.inl proCheckout, .inr 0, .inr 0]).pool, ¬ InHand (.user 1) q.2 := by
    intro q hq
    rw [List.mem_singleton.mp hq]
    exact not_inHand_next fun l hl => by cases hl
  have hfirst := Steps.snoc (Steps.snoc (Steps.snoc hread
    (fire_alone 0 rfl rfl fun _ => ⟨rfl, hfree⟩)) (fire_alone 0 rfl rfl trivial))
    (fire_alone 0 rfl rfl trivial)
  have hasked := Steps.snoc (Steps.snoc (Steps.snoc hfirst ⟨.arrive trivial, trivial⟩)
    (fire_alone 1 rfl rfl trivial)) (fire_alone 1 rfl rfl trivial)
  have hboth := Steps.snoc (Steps.snoc hasked (fire_alone 1 rfl rfl trivial))
    (fire_alone 1 rfl rfl trivial)
  exact ⟨(one_customer_iff sampleEnv customerlessBilling_unclashed hboth).1, rfl⟩

/-- Two checkouts at once: two customers, a session of each, and only the second is stored. -/
theorem two_customers_created :
    (∃ tr, Steps (CheckoutStep sampleEnv (.user 1)) ⟨customerlessBilling, []⟩ tr
      (bought overlapping)) ∧
      ¬ OneCustomer sampleEnv (.user 1) customerlessBilling (bought overlapping).store ∧
      (bought overlapping).store.sessions.map (·.customer) = [0, 1] ∧
      (Payer.user 1).stored (bought overlapping).store.world = some 1 := by
  refine ⟨Config.play_steps _ _ overlapping (fun _ _ => trivial) _ (by rfl), fun h => ?_, rfl, rfl⟩
  exact absurd h.created (by decide)

end Sample

end Checkout

end SaasBackend
