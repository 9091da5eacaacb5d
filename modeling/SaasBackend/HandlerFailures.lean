import SaasBackend.HandlerProgram

/-! Handlers under a failure plan. `Spared` says that no failure of the plan hits the
handler; `FailsFlat` that a failure, wherever it hits, leaves the store as it was up to
`R`: the handler has written nothing by then, and does not recover. -/

set_option autoImplicit false

namespace Handler.Prog

variable {σ ε ℓ α β : Type} (exec : ℓ → σ → Except ε σ)

/-- The plan has no entry for any statement that the handler gets to. -/
def Spared : Prog σ ε ℓ α → List (Option ε) → σ → Prop
  | .ret _, _, _ => True
  | .throw _, _, _ => True
  | .stmt l n c, plan, s =>
    match plan.head?.join with
    | some _ => False
    | none =>
      match exec l s with
      | .ok s' => (n s).Spared plan.tail s'
      | .error e => (c e).Spared plan.tail s

def sentFaulty : Prog σ ε ℓ α → List (Option ε) → σ → List ℓ
  | .ret _, _, _ => []
  | .throw _, _, _ => []
  | .stmt l n c, plan, s =>
    match plan.head?.join with
    | some e => (c e).sentFaulty plan.tail s
    | none =>
      match exec l s with
      | .ok s' => l :: (n s).sentFaulty plan.tail s'
      | .error e => (c e).sentFaulty plan.tail s

/-- Run from `s`, the handler changes the store, up to `R`, only with its last
statement, and rethrows every failure that `raised` allows. -/
def FailsFlat (raised : ε → Prop) (R : σ → σ → Prop) : Prog σ ε ℓ α → σ → Prop
  | .ret _, _ => True
  | .throw _, _ => True
  | .stmt l n c, s =>
    (∀ e, raised e → ∃ e', c e = .throw e') ∧
      match exec l s with
      | .ok s' => (n s).isDone ∨ (R s s' ∧ (n s).FailsFlat raised R s')
      | .error e => (c e).FailsFlat raised R s

variable {exec}

theorem runFaulty_spared {p : Prog σ ε ℓ α} {plan : List (Option ε)} {s : σ}
    (h : p.Spared exec plan s) : p.runFaulty exec plan s = p.run exec s := by
  induction p generalizing plan s with
  | ret a => rfl
  | throw e => rfl
  | stmt l n c hn hc =>
    simp only [Spared] at h
    split at h
    · exact h.elim
    · rename_i hhead
      simp only [runFaulty, run_stmt, hhead]
      split at h
      · rename_i s' he
        simpa [he] using hn s h
      · rename_i e he
        simpa [he] using hc e h

theorem spared_nil (p : Prog σ ε ℓ α) (s : σ) : p.Spared exec [] s := by
  induction p generalizing s with
  | ret a => trivial
  | throw e => trivial
  | stmt l n c hn hc =>
    simp only [Spared, List.head?_nil, Option.join_none, List.tail_nil]
    split
    · exact hn s _
    · exact hc _ s

theorem runFaulty_done {p : Prog σ ε ℓ α} (h : p.isDone) (plan : List (Option ε)) (s : σ) :
    p.Spared exec plan s := by
  cases p with
  | ret a => trivial
  | throw e => trivial
  | stmt l n c => cases h

theorem FailsFlat.hit {raised : ε → Prop} {R : σ → σ → Prop} (hrefl : ∀ s, R s s)
    (htrans : ∀ s₁ s₂ s₃, R s₁ s₂ → R s₂ s₃ → R s₁ s₃) {p : Prog σ ε ℓ α} {plan : List (Option ε)}
    {s : σ} (h : p.FailsFlat exec raised R s) (hplan : ∀ e, some e ∈ plan → raised e)
    (hhit : ¬ p.Spared exec plan s) : R s (p.runFaulty exec plan s).2 := by
  induction p generalizing plan s with
  | ret a => exact absurd trivial hhit
  | throw e => exact absurd trivial hhit
  | stmt l n c hn hc =>
    have htail : ∀ e, some e ∈ plan.tail → raised e := fun e he => hplan e (List.mem_of_mem_tail he)
    simp only [FailsFlat] at h
    obtain ⟨hthrow, hrest⟩ := h
    simp only [Spared] at hhit
    simp only [runFaulty]
    cases hhead : plan.head?.join with
    | some e =>
      have hmem : some e ∈ plan := List.mem_of_head? (Option.join_eq_some_iff.mp hhead)
      obtain ⟨e', he'⟩ := hthrow e (hplan e hmem)
      simp only [he', runFaulty]
      exact hrefl s
    | none =>
      rw [hhead] at hhit
      cases he : exec l s with
      | ok s' =>
        rw [he] at hhit hrest
        rcases hrest with hdone | ⟨hR, hflat⟩
        · exact absurd (runFaulty_done hdone _ _) hhit
        · exact htrans _ _ _ hR (hn s hflat htail hhit)
      | error e =>
        rw [he] at hhit hrest
        exact hc e hrest htail hhit

theorem failsFlat_send_bind {raised : ε → Prop} {R : σ → σ → Prop} {l : ℓ} {view : σ → α}
    {k : α → Prog σ ε ℓ β} {s : σ} :
    ((send l view).bind k).FailsFlat exec raised R s ↔
      match exec l s with
      | .ok s' => (k (view s)).isDone ∨ (R s s' ∧ (k (view s)).FailsFlat exec raised R s')
      | .error _ => True := by
  rw [send_bind]
  simp only [FailsFlat]
  cases exec l s with
  | ok s' => exact and_iff_right fun e _ => ⟨e, rfl⟩
  | error e => exact and_iff_right fun e _ => ⟨e, rfl⟩

/-- What every statement of the footprint does to the store, a run does under any plan. -/
theorem Sends.runFaulty {P : ℓ → Prop} {R : σ → σ → Prop} (hrefl : ∀ s, R s s)
    (htrans : ∀ s₁ s₂ s₃, R s₁ s₂ → R s₂ s₃ → R s₁ s₃)
    (hstep : ∀ l s s', P l → exec l s = .ok s' → R s s') {p : Prog σ ε ℓ α} (h : p.Sends P)
    (plan : List (Option ε)) (s : σ) : R s (p.runFaulty exec plan s).2 := by
  induction p generalizing plan s with
  | ret a => exact hrefl s
  | throw e => exact hrefl s
  | stmt l n c hn hc =>
    simp only [Prog.runFaulty]
    split
    · exact hc _ (h.2.2 _) plan.tail s
    · split
      · rename_i s' he
        exact htrans _ _ _ (hstep l s s' h.1 he) (hn s (h.2.1 s) plan.tail s')
      · exact hc _ (h.2.2 _) plan.tail s

theorem runFaulty_map (p : Prog σ ε ℓ α) (f : α → β) (plan : List (Option ε)) (s : σ) :
    ((p.bind (fun a => .ret (f a))).runFaulty exec plan s).2 = (p.runFaulty exec plan s).2 := by
  induction p generalizing plan s with
  | ret a => rfl
  | throw e => rfl
  | stmt l n c hn hc =>
    simp only [stmt_bind, runFaulty]
    split
    · exact hc _ plan.tail s
    · split
      · exact hn s plan.tail _
      · exact hc _ plan.tail s

def failsWithin (n : Nat) (plan : List (Option ε)) : Bool := (plan.take n).any Option.isSome

theorem failsWithin_succ (n : Nat) (plan : List (Option ε)) :
    failsWithin (n + 1) plan = (plan.head?.join.isSome || failsWithin n plan.tail) := by
  cases plan <;> simp [failsWithin]

def goesOn (exec : ℓ → σ → Except ε σ) (l : ℓ) (n : σ → Prog σ ε ℓ α)
    (c : ε → Prog σ ε ℓ α) (s : σ) :
    Prog σ ε ℓ α × σ :=
  match exec l s with
  | .ok s' => (n s, s')
  | .error e => (c e, s)

/-- Spared by failures, the handler meets these stores one after the other, the last of them
at its end; every failure it rethrows. -/
inductive Passes (exec : ℓ → σ → Except ε σ) : Prog σ ε ℓ α → List σ → Except ε α → Prop where
  | ret {a : α} {s : σ} : Passes exec (.ret a) [s] (.ok a)
  | throw {e : ε} {s : σ} : Passes exec (.throw e) [s] (.error e)
  | stmt {l : ℓ} {n : σ → Prog σ ε ℓ α} {c : ε → Prog σ ε ℓ α} {p' : Prog σ ε ℓ α} {s s' : σ}
      {rest : List σ} {r : Except ε α} : (∀ e, ∃ e', c e = .throw e') →
        goesOn exec l n c s = (p', s') →
      Passes exec p' (s' :: rest) r → Passes exec (.stmt l n c) (s :: s' :: rest) r

section Passes

variable {r : Except ε α} {p p' : Prog σ ε ℓ α} {l : ℓ} {n : σ → Prog σ ε ℓ α}
    {c : ε → Prog σ ε ℓ α} {s s' : σ}
  {stores : List σ} {plan : List (Option ε)} {k : Nat} {P : σ → Prop}

theorem runFaulty_hit (hthrow : ∀ e, ∃ e', c e = .throw e') (hhit : plan.head?.join.isSome = true) :
    ∃ e, (stmt l n c).runFaulty exec plan s = (.error e, s) := by
  obtain ⟨e, he⟩ := Option.isSome_iff_exists.mp hhit
  obtain ⟨e', he'⟩ := hthrow e
  exact ⟨e', by simp only [runFaulty, he, he']⟩

theorem runFaulty_goesOn (hnext : goesOn exec l n c s = (p', s'))
    (hspared : plan.head?.join.isSome = false) :
    (stmt l n c).runFaulty exec plan s = p'.runFaulty exec plan.tail s' := by
  have hnone : plan.head?.join = none := by simpa using hspared
  unfold goesOn at hnext
  cases hexec : exec l s with
  | ok s₁ =>
    rw [hexec] at hnext
    cases hnext
    simp only [runFaulty, hnone, hexec]
  | error e =>
    rw [hexec] at hnext
    cases hnext
    simp only [runFaulty, hnone, hexec]

theorem Passes.early (h : p.Passes exec stores r) (hs : stores.head? = some s)
    (hP : ∀ t ∈ stores.take k, P t) (hfails : failsWithin k plan = true) :
    P (p.runFaulty exec plan s).2 := by
  induction h generalizing k plan s with
  | ret | throw =>
    cases hs
    cases k with
    | zero => cases hfails
    | succ k => exact hP _ (.head _)
  | stmt hthrow hnext _ ih =>
    cases hs
    cases k with
    | zero => cases hfails
    | succ k =>
      cases hhit : plan.head?.join.isSome with
      | true =>
        obtain ⟨e, he⟩ := runFaulty_hit hthrow hhit
        rw [he]
        exact hP _ (.head _)
      | false =>
        rw [failsWithin_succ, hhit] at hfails
        rw [runFaulty_goesOn hnext hhit]
        exact ih rfl (fun t ht => hP t (.tail _ ht)) hfails

/-- Without a failure in the first `k` statements one of the stores after them is left. -/
theorem Passes.late (h : p.Passes exec stores r) (hs : stores.head? = some s)
    (hk : k < stores.length) (hP : ∀ t ∈ stores.drop k, P t)
    (hspared : failsWithin k plan = false) : P (p.runFaulty exec plan s).2 := by
  induction h generalizing k plan s with
  | ret | throw =>
    cases hs
    obtain rfl : k = 0 := by simpa using hk
    exact hP _ (.head _)
  | @stmt _ _ _ _ _ _ rest _ hthrow hnext _ ih =>
    cases hs
    cases hhit : plan.head?.join.isSome with
    | true =>
      obtain ⟨e, he⟩ := runFaulty_hit hthrow hhit
      rw [he]
      cases k with
      | zero => exact hP _ (.head _)
      | succ k =>
        rw [failsWithin_succ, hhit] at hspared
        cases hspared
    | false =>
      rw [runFaulty_goesOn hnext hhit]
      cases k with
      | zero => exact ih (k := 0) rfl (Nat.succ_pos _) (fun t ht => hP t (.tail _ ht)) rfl
      | succ k =>
        rw [failsWithin_succ, hhit] at hspared
        exact ih rfl (Nat.lt_of_succ_lt_succ hk) hP hspared

theorem Passes.throws_iff {a : α} (h : p.Passes exec stores (.ok a)) (hs : stores.head? = some s) :
    (∃ e, (p.runFaulty exec plan s).1 = .error e) ↔
      failsWithin (stores.length - 1) plan = true := by
  generalize hr : Except.ok a = r at h
  induction h generalizing plan s with
  | ret => simp [runFaulty, failsWithin]
  | throw => cases hr
  | stmt hthrow hnext _ ih =>
    cases hs
    rw [List.length_cons, Nat.add_sub_cancel, List.length_cons, failsWithin_succ]
    cases hhit : plan.head?.join.isSome with
    | true =>
      obtain ⟨e, he⟩ := runFaulty_hit hthrow hhit
      rw [he]
      exact ⟨fun _ => rfl, fun _ => ⟨e, rfl⟩⟩
    | false =>
      rw [runFaulty_goesOn hnext hhit, Bool.false_or]
      exact ih rfl hr

theorem Passes.send_bind {view : σ → β} {k : β → Prog σ ε ℓ α} {rest : List σ}
    (hexec : exec l s = .ok s') (h : (k (view s)).Passes exec (s' :: rest) r) :
    ((send l view).bind k).Passes exec (s :: s' :: rest) r :=
  .stmt (fun e => ⟨e, rfl⟩) (by rw [goesOn, hexec]; rfl) h

theorem Passes.tryCatch_bind {view : σ → β} {h : ε → Prog σ ε ℓ β} {k : β → Prog σ ε ℓ α}
    {rest : List σ} (hthrow : ∀ e, ∃ e', (h e).bind k = .throw e') (hexec : exec l s = .ok s')
    (hp : (k (view s)).Passes exec (s' :: rest) r) :
    (((send l view).tryCatch h).bind k).Passes exec (s :: s' :: rest) r :=
  .stmt hthrow (by rw [goesOn, hexec]; rfl) hp

theorem Passes.tryCatch_error {view : σ → β} {h : ε → Prog σ ε ℓ β}
    {k : β → Prog σ ε ℓ α} {e e' : ε} (hthrow : ∀ e, ∃ e', (h e).bind k = .throw e')
    (hexec : exec l s = .error e) (he : (h e).bind k = .throw e') :
    (((send l view).tryCatch h).bind k).Passes exec [s, s] (.error e') :=
  .stmt hthrow (by rw [goesOn, hexec]; exact Prod.ext he rfl) .throw

end Passes

def Plain : Prog σ ε ℓ α → Prop
  | .ret _ => True
  | .throw _ => False
  | .stmt _ n c => (∀ e, c e = .throw e) ∧ ∀ s, (n s).Plain

theorem Plain.send {l : ℓ} {view : σ → α} : (Prog.send l view : Prog σ ε ℓ α).Plain :=
    ⟨fun _ => rfl, fun _ => trivial⟩

theorem Plain.bind {p : Prog σ ε ℓ α} {k : α → Prog σ ε ℓ β} (hp : p.Plain)
    (hk : ∀ a, (k a).Plain) :
    (p.bind k).Plain := by
  induction p with
  | ret a => exact hk a
  | throw e => exact hp.elim
  | stmt l n c hn hc => exact ⟨fun e => congrArg (·.bind k) (hp.1 e), fun s => hn s (hp.2 s)⟩

/-- What a plain handler throws is a failure of the plan or of a statement. -/
theorem Plain.thrown {P : ε → Prop} {p : Prog σ ε ℓ α} {plan : List (Option ε)} {s : σ}
    (h : p.Plain) {L : ℓ → Prop} (hsends : p.Sends L)
    (hexec : ∀ l s e, L l → exec l s = .error e → P e) (hplan : ∀ e, some e ∈ plan → P e) {e : ε}
    (hthrown : (p.runFaulty exec plan s).1 = .error e) : P e := by
  induction p generalizing plan s with
  | ret a => cases hthrown
  | throw e' => exact h.elim
  | stmt l n c hn hc =>
    simp only [runFaulty] at hthrown
    split at hthrown
    · rename_i e' hhead
      rw [h.1 e'] at hthrown
      cases hthrown
      exact hplan e (List.mem_of_head? (Option.join_eq_some_iff.mp hhead))
    · split at hthrown
      · exact hn s (h.2 s) (hsends.2.1 s) (fun e he => hplan e (List.mem_of_mem_tail he)) hthrown
      · rename_i e' hfails
        rw [h.1 e'] at hthrown
        cases hthrown
        exact hexec l s e hsends.1 hfails

end Handler.Prog
