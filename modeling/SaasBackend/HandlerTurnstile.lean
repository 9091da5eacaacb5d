import SaasBackend.HandlerInterleaving

/-! Handlers that have to get past a certain statement before they can return anything
good. What is known about such a handler before that statement (`Held`) survives what
the others do (`rely`); what it is bound to after it depends on the store at which the
statement fired (`after`). -/

set_option autoImplicit false

namespace Handler

variable {ρ σ ε ℓ α β : Type}

/-- At most one statement that the handler sends satisfies `P`. -/
def Prog.SendsOnce (P : ℓ → Prop) : Prog σ ε ℓ α → Prop
  | .ret _ => True
  | .throw _ => True
  | .stmt l n c =>
    (¬ P l ∧ (∀ s, (n s).SendsOnce P) ∧ ∀ e, (c e).SendsOnce P) ∨
      ((∀ s, (n s).Sends (fun l => ¬ P l)) ∧ ∀ e, (c e).Sends (fun l => ¬ P l))

section Once

variable {P : ℓ → Prop}

theorem Prog.Sends.once {p : Prog σ ε ℓ α} (h : p.Sends (fun l => ¬ P l)) : p.SendsOnce P := by
  induction p with
  | ret a => trivial
  | throw e => trivial
  | stmt l n c hn hc => exact .inl ⟨h.1, fun s => hn s (h.2.1 s), fun e => hc e (h.2.2 e)⟩

theorem Prog.SendsOnce.bind {p : Prog σ ε ℓ α} {k : α → Prog σ ε ℓ β}
    (hp : p.Sends (fun l => ¬ P l)) (hk : ∀ a, (k a).SendsOnce P) : (p.bind k).SendsOnce P := by
  induction p with
  | ret a => exact hk a
  | throw e => trivial
  | stmt l n c hn hc => exact .inl ⟨hp.1, fun s => hn s (hp.2.1 s), fun e => hc e (hp.2.2 e)⟩

theorem Prog.SendsOnce.send_bind {l : ℓ} {view : σ → α} {k : α → Prog σ ε ℓ β}
    (hk : ∀ a, (k a).Sends (fun l => ¬ P l)) : ((Prog.send l view).bind k).SendsOnce P :=
  .inr ⟨fun s => hk (view s), fun _ => trivial⟩

variable [DecidablePred P]

def Event.isFiring (P : ℓ → Prop) [DecidablePred P] (i : Nat) : Event ρ σ ℓ → Bool
  | .fire j l _ _ => j == i && decide (P l)
  | .arrive _ => false

def firings (P : ℓ → Prop) [DecidablePred P] (tr : List (Event ρ σ ℓ)) (i : Nat) : Nat :=
  tr.countP (Event.isFiring P i)

theorem exists_firing {tr : List (Event ρ σ ℓ)} {i : Nat} (h : 0 < firings P tr i) :
    ∃ l s s', .fire i l s s' ∈ tr ∧ P l := by
  obtain ⟨e, hmem, he⟩ := List.countP_pos_iff.mp h
  cases e with
  | arrive r => cases he
  | fire j l s s' =>
    simp only [Event.isFiring, Bool.and_eq_true, beq_iff_eq, decide_eq_true_eq] at he
    obtain ⟨rfl, hl⟩ := he
    exact ⟨l, s, s', hmem, hl⟩

/-- A request that sends one such statement at most fires one at most in any run. -/
theorem firings_le_one {exec : ℓ → σ → Except ε σ} {prog : ρ → Prog σ ε ℓ α} {may : ρ → Prop}
    {cond : σ → ℓ → Prop} {tr : List (Event ρ σ ℓ)} {s₀ : σ} {c : Config ρ σ ε ℓ α}
    (hsteps : Steps (Step exec prog may cond) ⟨s₀, []⟩ tr c) :
    (∀ i, c.pool.length ≤ i → firings P tr i = 0) ∧
      ∀ (i : Nat) (q : ρ × Prog σ ε ℓ α), c.pool[i]? = some q → (prog q.1).SendsOnce P →
        (firings P tr i = 0 ∧ q.2.SendsOnce P) ∨
          (firings P tr i = 1 ∧ q.2.Sends (fun l => ¬ P l)) := by
  induction hsteps with
  | refl => exact ⟨fun _ _ => rfl, by simp⟩
  | @snoc tr c c' e hprev hstep ih =>
    obtain ⟨hlen, hpool⟩ := ih
    cases hstep with
    | @arrive r hr =>
      have hsame : ∀ i, firings P (.arrive r :: tr) i = firings P tr i := fun i => by
        simp [firings, Event.isFiring]
      refine ⟨fun i hi => ?_, fun i q hq hone => ?_⟩
      · rw [hsame]
        refine hlen i ?_
        simp only [Config.arrive, List.length_append, List.length_singleton] at hi
        omega
      · rw [hsame]
        rcases Config.arrive_pool prog hq with hold | ⟨rfl, rfl⟩
        · exact hpool i q hold hone
        · exact .inl ⟨hlen _ (Nat.le_refl _), hone⟩
    | @fire i₀ r l n k hi₀ hcond =>
      have hother : ∀ i, i ≠ i₀ →
          firings P (.fire i₀ l c.store (c.advance exec i₀).store :: tr) i = firings P tr i := by
        intro i hne
        have hbeq : (i₀ == i) = false := beq_eq_false_iff_ne.mpr (Ne.symm hne)
        simp [firings, Event.isFiring, hbeq]
      have hlt : i₀ < c.pool.length := (List.getElem?_eq_some_iff.mp hi₀).1
      refine ⟨fun i hi => ?_, fun i q hq hone => ?_⟩
      · rw [Config.advance_length] at hi
        rw [hother i (by omega)]
        exact hlen i hi
      · rcases Config.advance_pool _ hi₀ hq with ⟨hne, hold⟩ | ⟨rfl, hnew⟩
        · rw [hother i (Ne.symm hne)]
          exact hpool i q hold hone
        · have hfst : q.1 = r := by rcases hnew with ⟨_, _, rfl⟩ | ⟨_, _, rfl⟩ <;> rfl
          rw [hfst] at hone
          have hcount : firings P (.fire i₀ l c.store (c.advance exec i₀).store :: tr) i₀ =
              firings P tr i₀ + if P l then 1 else 0 := by
            by_cases hl : P l <;> simp [firings, Event.isFiring, hl]
          rw [hcount]
          rcases hpool i₀ _ hi₀ hone with ⟨hzero, hsends⟩ | ⟨hcounted, hsends⟩
          · rcases hsends with ⟨hl, hn, hk⟩ | ⟨hn, hk⟩
            · refine .inl ⟨by simp [hzero, hl], ?_⟩
              rcases hnew with ⟨_, _, rfl⟩ | ⟨_, _, rfl⟩
              · exact hn _
              · exact hk _
            · have hrest : q.2.Sends (fun l => ¬ P l) := by
                rcases hnew with ⟨_, _, rfl⟩ | ⟨_, _, rfl⟩
                · exact hn _
                · exact hk _
              by_cases hl : P l
              · exact .inr ⟨by simp [hzero, hl], hrest⟩
              · exact .inl ⟨by simp [hzero, hl], hrest.once⟩
          · refine .inr ⟨by simp [hcounted, hsends.1], ?_⟩
            rcases hnew with ⟨_, _, rfl⟩ | ⟨_, _, rfl⟩
            · exact hsends.2.1 _
            · exact hsends.2.2 _

end Once

structure Turnstile (σ ε ℓ α : Type) where
  exec : ℓ → σ → Except ε σ
  /-- the statements that any handler of the pool may send -/
  allowed : ℓ → Prop
  inv : σ → Prop
  rely : σ → σ → Prop
  pass : σ → ℓ → Prop
  /-- statements that are only sent after the passing one -/
  barred : ℓ → Prop
  good : α → Prop
  after : σ → Prog σ ε ℓ α → Prop
  rely_refl : ∀ s, rely s s
  rely_trans : ∀ s₁ s₂ s₃, rely s₁ s₂ → rely s₂ s₃ → rely s₁ s₃
  inv_step : ∀ l s s', allowed l → inv s → exec l s = .ok s' → inv s'
  rely_step : ∀ l s s', allowed l → inv s → exec l s = .ok s' → rely s s'
  after_next : ∀ s l n c s', after s (.stmt l n c) → after s (n s')
  after_fail : ∀ s l n c e, after s (.stmt l n c) → after s (c e)

namespace Turnstile

variable (T : Turnstile σ ε ℓ α)

def Held : Prog σ ε ℓ α → σ → Prop
  | .ret a, _ => ¬ T.good a
  | .throw _, _ => True
  | .stmt l n c, s => ∀ s', T.rely s s' → T.inv s' →
      ¬ T.barred l ∧
        (∀ s'', T.exec l s' = .ok s'' →
          (T.pass s' l ∧ T.after s' (n s')) ∨ Held (n s') s'') ∧
        ∀ e, T.exec l s' = .error e → Held (c e) s'

variable {T}

theorem Held.mono {p : Prog σ ε ℓ α} {s s' : σ} (h : T.Held p s) (hr : T.rely s s') :
    T.Held p s' := by
  cases p with
  | ret a => exact h
  | throw e => trivial
  | stmt l n c => exact fun s'' hs => h s'' (T.rely_trans _ _ _ hr hs)

theorem held_send_bind {l : ℓ} {view : σ → β} {k : β → Prog σ ε ℓ α} {s : σ} :
    T.Held ((Prog.send l view).bind k) s ↔ ∀ s', T.rely s s' → T.inv s' →
      ¬ T.barred l ∧ ∀ s'', T.exec l s' = .ok s'' →
        (T.pass s' l ∧ T.after s' (k (view s'))) ∨ T.Held (k (view s')) s'' := by
  rw [Prog.send_bind]
  simp only [Held]
  refine forall_congr' fun s' => imp_congr_right fun _ => imp_congr_right fun _ => ?_
  exact and_congr_right fun _ => and_iff_left fun _ _ => trivial

theorem Held.of_returns {p : Prog σ ε ℓ α} (hp : p.Returns (fun a => ¬ T.good a))
    (hb : p.Sends (fun l => ¬ T.barred l)) (s : σ) : T.Held p s := by
  induction p generalizing s with
  | ret a => exact hp
  | throw e => trivial
  | stmt l n c hn hc =>
    exact fun s' _ _ => ⟨hb.1, fun s'' _ => .inr (hn s' (hp.1 s') (hb.2.1 s') s''),
      fun e _ => hc e (hp.2 e) (hb.2.2 e) s'⟩

theorem Held.bind {Q : β → Prop} {p : Prog σ ε ℓ β} {k : β → Prog σ ε ℓ α} {s : σ}
    (hsends : p.Sends (fun l => T.allowed l ∧ ¬ T.barred l)) (hret : p.Returns Q) (hinv : T.inv s)
    (hk : ∀ a s', Q a → T.rely s s' → T.inv s' → T.Held (k a) s') : T.Held (p.bind k) s := by
  induction p generalizing s with
  | ret a => exact hk a s hret (T.rely_refl s) hinv
  | throw e => trivial
  | stmt l n c hn hc =>
    intro s' hr hi
    refine ⟨hsends.1.2, fun s'' he => .inr ?_, fun e he => ?_⟩
    · have hr' := T.rely_trans _ _ _ hr (T.rely_step _ _ _ hsends.1.1 hi he)
      exact hn s' (hsends.2.1 s') (hret.1 s') (T.inv_step _ _ _ hsends.1.1 hi he)
        (fun a s₃ ha hr₃ => hk a s₃ ha (T.rely_trans _ _ _ hr' hr₃))
    · exact hc e (hsends.2.2 e) (hret.2 e) hi
        (fun a s₃ ha hr₃ => hk a s₃ ha (T.rely_trans _ _ _ hr hr₃))

def PassedAt (T : Turnstile σ ε ℓ α) (tr : List (Event ρ σ ℓ)) (i : Nat) (s : σ) : Prop :=
  ∃ l s', .fire i l s s' ∈ tr ∧ T.pass s l ∧ T.exec l s = .ok s'

theorem PassedAt.cons {tr : List (Event ρ σ ℓ)} {i : Nat} {s : σ} (h : T.PassedAt tr i s)
    (e : Event ρ σ ℓ) : T.PassedAt (e :: tr) i s := by
  obtain ⟨l, s', hmem, hrest⟩ := h
  exact ⟨l, s', by simp [hmem], hrest⟩

/-- What is known of a run: of its store, of the stores its statements met, and of the
watched requests of its pool. -/
structure Runs (T : Turnstile σ ε ℓ α) (watch : ρ → Prop) (tr : List (Event ρ σ ℓ))
    (c : Config ρ σ ε ℓ α) : Prop where
  inv : T.inv c.store
  since : ∀ i l s s', .fire i l s s' ∈ tr →
    i < c.pool.length ∧ T.inv s ∧ T.rely s s' ∧ T.rely s' c.store
  sends : ∀ (i : Nat) (q : ρ × Prog σ ε ℓ α), c.pool[i]? = some q → q.2.Sends T.allowed
  threads : ∀ (i : Nat) (q : ρ × Prog σ ε ℓ α), c.pool[i]? = some q → watch q.1 →
    T.Held q.2 c.store ∨ ∃ s, T.PassedAt tr i s ∧ T.after s q.2
  barred : ∀ (i : Nat) (q : ρ × Prog σ ε ℓ α), c.pool[i]? = some q → watch q.1 →
    ∀ l s s', .fire i l s s' ∈ tr → T.barred l → ∃ s, T.PassedAt tr i s

section Fire

variable {watch : ρ → Prop} {tr : List (Event ρ σ ℓ)} {c : Config ρ σ ε ℓ α} {i : Nat}
    {r : ρ} {l : ℓ}
  {n : σ → Prog σ ε ℓ α} {k : ε → Prog σ ε ℓ α}

def fired (T : Turnstile σ ε ℓ α) (c : Config ρ σ ε ℓ α) (i : Nat) (l : ℓ) : Event ρ σ ℓ :=
  .fire i l c.store (c.advance T.exec i).store

theorem Runs.fire_store (h : T.Runs watch tr c) (hi : c.pool[i]? = some (r, .stmt l n k)) :
    T.inv (c.advance T.exec i).store ∧ T.rely c.store (c.advance T.exec i).store := by
  have hallowed := (h.sends i _ hi).1
  cases he : T.exec l c.store with
  | ok s =>
    rw [Config.advance_ok _ hi he]
    exact ⟨T.inv_step _ _ _ hallowed h.inv he, T.rely_step _ _ _ hallowed h.inv he⟩
  | error e =>
    rw [Config.advance_error _ hi he]
    exact ⟨h.inv, T.rely_refl _⟩

theorem Runs.fire_thread (h : T.Runs watch tr c) (hi : c.pool[i]? = some (r, .stmt l n k))
    (hr : watch r) {q : ρ × Prog σ ε ℓ α}
    (hnew : (∃ s, T.exec l c.store = .ok s ∧ q = (r, n c.store)) ∨
      ∃ e, T.exec l c.store = .error e ∧ q = (r, k e)) :
    T.Held q.2 (c.advance T.exec i).store ∨
      ∃ s, T.PassedAt (fired T c i l :: tr) i s ∧ T.after s q.2 := by
  rcases h.threads i _ hi hr with hheld | ⟨s₁, hpassed, hafter⟩
  · obtain ⟨_, hok, herr⟩ := hheld _ (T.rely_refl _) h.inv
    rcases hnew with ⟨s, he, rfl⟩ | ⟨e, he, rfl⟩
    · rw [show (c.advance T.exec i).store = s by rw [Config.advance_ok _ hi he]]
      rcases hok s he with ⟨hpass, hafter⟩ | hheld'
      · exact .inr ⟨c.store,
          ⟨l, _, List.mem_cons_self, hpass, by rw [Config.advance_ok _ hi he, he]⟩,
          hafter⟩
      · exact .inl hheld'
    · rw [show (c.advance T.exec i).store = c.store by rw [Config.advance_error _ hi he]]
      exact .inl (herr e he)
  · rcases hnew with ⟨s, _, rfl⟩ | ⟨e, _, rfl⟩
    · exact .inr ⟨s₁, hpassed.cons _, T.after_next _ _ _ _ _ hafter⟩
    · exact .inr ⟨s₁, hpassed.cons _, T.after_fail _ _ _ _ _ hafter⟩

theorem Runs.fire (h : T.Runs watch tr c) (hi : c.pool[i]? = some (r, .stmt l n k)) :
    T.Runs watch (fired T c i l :: tr) (c.advance T.exec i) := by
  obtain ⟨hallowed, hnext, hfail⟩ := h.sends i _ hi
  obtain ⟨hinv, hrely⟩ := h.fire_store hi
  have hlt : i < c.pool.length := (List.getElem?_eq_some_iff.mp hi).1
  refine ⟨hinv, fun j l' s₁ s₂ hmem => ?_, fun j q hq => ?_, fun j q hq hw => ?_,
    fun j q hq hw l' s₁ s₂ hmem hb => ?_⟩
  · rw [Config.advance_length]
    rcases List.mem_cons.mp hmem with heq | hold
    · cases heq
      exact ⟨hlt, h.inv, hrely, T.rely_refl _⟩
    · obtain ⟨hlen, hinv₁, hrely₁, hrely₂⟩ := h.since j l' s₁ s₂ hold
      exact ⟨hlen, hinv₁, hrely₁, T.rely_trans _ _ _ hrely₂ hrely⟩
  · rcases Config.advance_pool _ hi hq with ⟨_, hold⟩ | ⟨rfl, ⟨_, _, rfl⟩ | ⟨_, _, rfl⟩⟩
    · exact h.sends j q hold
    · exact hnext _
    · exact hfail _
  · rcases Config.advance_pool _ hi hq with ⟨_, hold⟩ | ⟨rfl, hnew⟩
    · rcases h.threads j q hold hw with hheld | ⟨s₁, hpassed, hafter⟩
      · exact .inl (hheld.mono hrely)
      · exact .inr ⟨s₁, hpassed.cons _, hafter⟩
    · have hr : q.1 = r := by rcases hnew with ⟨_, _, rfl⟩ | ⟨_, _, rfl⟩ <;> rfl
      exact h.fire_thread hi (hr ▸ hw) hnew
  · have hbefore : ∃ p, c.pool[j]? = some (q.1, p) := by
      rcases Config.advance_pool _ hi hq with ⟨_, hold⟩ | ⟨rfl, ⟨_, _, rfl⟩ | ⟨_, _, rfl⟩⟩
      · exact ⟨_, hold⟩
      · exact ⟨_, hi⟩
      · exact ⟨_, hi⟩
    obtain ⟨p, hp⟩ := hbefore
    rcases List.mem_cons.mp hmem with heq | hold
    · cases heq
      rw [hi] at hp
      cases hp
      rcases h.threads _ _ hi hw with hheld | ⟨s₃, hpassed, _⟩
      · exact absurd hb (hheld _ (T.rely_refl _) h.inv).1
      · exact ⟨s₃, hpassed.cons _⟩
    · obtain ⟨s₃, hpassed⟩ := h.barred j _ hp hw l' s₁ s₂ hold hb
      exact ⟨s₃, hpassed.cons _⟩

end Fire

section Rule

variable {prog : ρ → Prog σ ε ℓ α} {may watch : ρ → Prop} {cond : σ → ℓ → Prop}
  {tr : List (Event ρ σ ℓ)} {c : Config ρ σ ε ℓ α} {s₀ : σ}

theorem Runs.arrive {r : ρ} (h : T.Runs watch tr c) (hsends : (prog r).Sends T.allowed)
    (hheld : watch r → T.Held (prog r) c.store) :
    T.Runs watch (.arrive r :: tr) (c.arrive prog r) := by
  refine ⟨h.inv, fun i l s s' hmem => ?_, fun i q hq => ?_, fun i q hq hw => ?_,
    fun i q hq hw l s s' hmem hb => ?_⟩
  · obtain ⟨hlen, hrest⟩ := h.since i l s s' (by simpa using hmem)
    exact ⟨by simp only [Config.arrive, List.length_append]; omega, hrest⟩
  · rcases Config.arrive_pool prog hq with hold | ⟨_, rfl⟩
    · exact h.sends i q hold
    · exact hsends
  · rcases Config.arrive_pool prog hq with hold | ⟨_, rfl⟩
    · rcases h.threads i q hold hw with hheld' | ⟨s, hpassed, hafter⟩
      · exact .inl hheld'
      · exact .inr ⟨s, hpassed.cons _, hafter⟩
    · exact .inl (hheld hw)
  · have hmem' : .fire i l s s' ∈ tr := by simpa using hmem
    rcases Config.arrive_pool prog hq with hold | ⟨rfl, _⟩
    · obtain ⟨s, hpassed⟩ := h.barred i q hold hw l s s' hmem' hb
      exact ⟨s, hpassed.cons _⟩
    · exact absurd (h.since _ l s s' hmem').1 (Nat.lt_irrefl _)

theorem Runs.steps (hsends : ∀ r, may r → (prog r).Sends T.allowed)
    (hheld : ∀ r s, may r → watch r → T.inv s → T.Held (prog r) s) (h₀ : T.inv s₀)
    (hsteps : Steps (Step T.exec prog may cond) ⟨s₀, []⟩ tr c) : T.Runs watch tr c := by
  refine Steps.invariant (T.Runs watch) ⟨h₀, by simp, by simp, by simp, by simp⟩ ?_ hsteps
  intro tr c e c' h hstep
  cases hstep with
  | arrive hr => exact h.arrive (hsends _ hr) (fun hw => hheld _ _ hr hw h.inv)
  | fire hi _ => exact h.fire hi

/-- Where the turnstile shuts behind the first that passes, at most one request passes. -/
theorem passes_once (closed : σ → Prop)
    (hshut : ∀ s l s', T.inv s → T.pass s l → T.exec l s = .ok s' → closed s')
    (hstable : ∀ s s', T.rely s s' → closed s → closed s')
    (hopen : ∀ s l, T.inv s → cond s l → T.pass s l → ¬ closed s)
    (hsends : ∀ r, may r → (prog r).Sends T.allowed) (h₀ : T.inv s₀)
    (hsteps : Steps (Step T.exec prog may cond) ⟨s₀, []⟩ tr c) :
    ((∃ i s, T.PassedAt tr i s) → closed c.store) ∧
      ∀ i j s s', T.PassedAt tr i s → T.PassedAt tr j s' → i = j := by
  induction hsteps with
  | refl => exact ⟨by simp [PassedAt], by simp [PassedAt]⟩
  | @snoc tr c c' e hprev hstep ih =>
    have hruns : T.Runs (fun _ => False) tr c := .steps hsends (fun _ _ _ h => h.elim) h₀ hprev
    cases hstep with
    | @arrive r hr =>
      have hold : ∀ i s, T.PassedAt (.arrive r :: tr) i s → T.PassedAt tr i s := by
        rintro i s ⟨l, s', hmem, hrest⟩
        exact ⟨l, s', by simpa using hmem, hrest⟩
      exact ⟨fun ⟨i, s, hp⟩ => ih.1 ⟨i, s, hold i s hp⟩,
        fun i j s s' hi hj => ih.2 i j s s' (hold i s hi) (hold j s' hj)⟩
    | @fire i₀ r l n k hi₀ hcond =>
      obtain ⟨_, hrely⟩ := hruns.fire_store hi₀
      have hcases : ∀ i s, T.PassedAt (fired T c i₀ l :: tr) i s → T.PassedAt tr i s ∨
          (i = i₀ ∧ T.pass c.store l ∧ T.exec l c.store = .ok (c.advance T.exec i₀).store) := by
        rintro i s ⟨l', s', hmem, hpass, hexec⟩
        rcases List.mem_cons.mp hmem with heq | hold
        · cases heq
          exact .inr ⟨rfl, hpass, hexec⟩
        · exact .inl ⟨l', s', hold, hpass, hexec⟩
      refine ⟨fun ⟨i, s, hp⟩ => ?_, fun i j s s' hi hj => ?_⟩
      · rcases hcases i s hp with hold | ⟨_, hpass, hexec⟩
        · exact hstable _ _ hrely (ih.1 ⟨i, s, hold⟩)
        · exact hshut _ _ _ hruns.inv hpass hexec
      · rcases hcases i s hi with hi' | ⟨rfl, hpass, _⟩
        · rcases hcases j s' hj with hj' | ⟨rfl, hpass, _⟩
          · exact ih.2 i j s s' hi' hj'
          · exact absurd (ih.1 ⟨i, s, hi'⟩) (hopen _ _ hruns.inv hcond hpass)
        · rcases hcases j s' hj with hj' | ⟨rfl, _, _⟩
          · exact absurd (ih.1 ⟨j, s', hj'⟩) (hopen _ _ hruns.inv hcond hpass)
          · rfl

end Rule

end Turnstile

end Handler
