import Mathlib.Logic.Basic

/-! Request handlers as trees of atomic statements. A handler talks to its store
only through statements; between two of them other handlers may run, and every
statement may fail. The same tree is read sequentially (`run`), with injected
failures (`runFaulty`) and, in HandlerInterleaving, under interference. -/

set_option autoImplicit false

namespace Handler

/-- `stmt l next fail` sends the statement `l`. `next` receives the store the
statement was executed on, which is all a statement can report about it. -/
inductive Prog (σ ε ℓ α : Type) where
  | ret : α → Prog σ ε ℓ α
  | throw : ε → Prog σ ε ℓ α
  | stmt : ℓ → (σ → Prog σ ε ℓ α) → (ε → Prog σ ε ℓ α) → Prog σ ε ℓ α

variable {σ ε ℓ α β : Type}

namespace Prog

def bind : Prog σ ε ℓ α → (α → Prog σ ε ℓ β) → Prog σ ε ℓ β
  | .ret a, k => k a
  | .throw e, _ => .throw e
  | .stmt l n c, k => .stmt l (fun s => (n s).bind k) (fun e => (c e).bind k)

def tryCatch : Prog σ ε ℓ α → (ε → Prog σ ε ℓ α) → Prog σ ε ℓ α
  | .ret a, _ => .ret a
  | .throw e, h => h e
  | .stmt l n c, h => .stmt l (fun s => (n s).tryCatch h) (fun e => (c e).tryCatch h)

def isDone : Prog σ ε ℓ α → Prop
  | .stmt .. => False
  | _ => True

def next : Prog σ ε ℓ α → Option ℓ
  | .stmt l _ _ => some l
  | _ => none

instance (p : Prog σ ε ℓ α) : Decidable p.isDone := by
  unfold isDone
  split <;> infer_instance

instance : Monad (Prog σ ε ℓ) where
  pure := .ret
  bind := bind

instance : MonadExcept ε (Prog σ ε ℓ) where
  throw := .throw
  tryCatch := tryCatch

/-- Send one statement and return what `view` reads off the store before it. -/
def send (l : ℓ) (view : σ → α) : Prog σ ε ℓ α := .stmt l (fun s => .ret (view s)) .throw

@[simp] theorem pure_eq (a : α) : (pure a : Prog σ ε ℓ α) = .ret a := rfl

@[simp] theorem bind_eq (p : Prog σ ε ℓ α) (k : α → Prog σ ε ℓ β) : (p >>= k) = p.bind k := rfl

@[simp] theorem throw_eq (e : ε) : (MonadExcept.throw e : Prog σ ε ℓ α) = .throw e := rfl

@[simp] theorem tryCatch_eq (p : Prog σ ε ℓ α) (h : ε → Prog σ ε ℓ α) :
    (MonadExcept.tryCatch p h) = p.tryCatch h := rfl

@[simp] theorem ret_bind (a : α) (k : α → Prog σ ε ℓ β) : (ret a : Prog σ ε ℓ α).bind k = k a := rfl

@[simp] theorem stmt_bind (l : ℓ) (n : σ → Prog σ ε ℓ α) (c : ε → Prog σ ε ℓ α)
    (k : α → Prog σ ε ℓ β) :
    (stmt l n c).bind k = stmt l (fun s => (n s).bind k) (fun e => (c e).bind k) := rfl

theorem send_bind (l : ℓ) (view : σ → α) (k : α → Prog σ ε ℓ β) :
    (send l view).bind k = stmt l (fun s => k (view s)) .throw := rfl

theorem bind_assoc {γ : Type} (p : Prog σ ε ℓ α) (k : α → Prog σ ε ℓ β) (m : β → Prog σ ε ℓ γ) :
    (p.bind k).bind m = p.bind (fun a => (k a).bind m) := by
  induction p with
  | ret a => rfl
  | throw e => rfl
  | stmt l n c hn hc => simp [hn, hc]

section Sequential

variable (exec : ℓ → σ → Except ε σ)

def run : Prog σ ε ℓ α → σ → Except ε α × σ
  | .ret a, s => (.ok a, s)
  | .throw e, s => (.error e, s)
  | .stmt l n c, s =>
    match exec l s with
    | .ok s' => (n s).run s'
    | .error e => (c e).run s

/-- The handler under a failure plan: entry `i` of the plan says which error, if
any, the `i`-th statement raises instead of being executed. -/
def runFaulty : Prog σ ε ℓ α → List (Option ε) → σ → Except ε α × σ
  | .ret a, _, s => (.ok a, s)
  | .throw e, _, s => (.error e, s)
  | .stmt l n c, plan, s =>
    match plan.head?.join with
    | some e => (c e).runFaulty plan.tail s
    | none =>
      match exec l s with
      | .ok s' => (n s).runFaulty plan.tail s'
      | .error e => (c e).runFaulty plan.tail s

@[simp] theorem run_ret (a : α) (s : σ) : (ret a : Prog σ ε ℓ α).run exec s = (.ok a, s) := rfl

@[simp] theorem run_throw (e : ε) (s : σ) :
    (throw e : Prog σ ε ℓ α).run exec s = (.error e, s) := rfl

theorem run_stmt (l : ℓ) (n : σ → Prog σ ε ℓ α) (c : ε → Prog σ ε ℓ α) (s : σ) :
    (stmt l n c).run exec s =
      match exec l s with
      | .ok s' => (n s).run exec s'
      | .error e => (c e).run exec s := by
  rw [run]

theorem run_bind (p : Prog σ ε ℓ α) (k : α → Prog σ ε ℓ β) (s : σ) :
    (p.bind k).run exec s =
      match p.run exec s with
      | (.ok a, s') => (k a).run exec s'
      | (.error e, s') => (.error e, s') := by
  induction p generalizing s with
  | ret a => rfl
  | throw e => rfl
  | stmt l n c hn hc =>
    simp only [stmt_bind, run_stmt]
    cases exec l s with
    | ok s' => exact hn s s'
    | error e => exact hc e s

theorem run_tryCatch (p : Prog σ ε ℓ α) (h : ε → Prog σ ε ℓ α) (s : σ) :
    (p.tryCatch h).run exec s =
      match p.run exec s with
      | (.ok a, s') => (.ok a, s')
      | (.error e, s') => (h e).run exec s' := by
  induction p generalizing s with
  | ret a => rfl
  | throw e => rfl
  | stmt l n c hn hc =>
    simp only [tryCatch, run_stmt]
    cases exec l s with
    | ok s' => exact hn s s'
    | error e => exact hc e s

theorem run_send (l : ℓ) (view : σ → α) (s : σ) :
    (send l view).run exec s =
      match exec l s with
      | .ok s' => (.ok (view s), s')
      | .error e => (.error e, s) := by
  rw [send, run_stmt]
  cases exec l s <;> rfl

def Ends (post : Except ε α → σ → Prop) (p : Prog σ ε ℓ α) (s : σ) : Prop :=
  post (p.run exec s).1 (p.run exec s).2

variable {exec} {post : Except ε α → σ → Prop}

theorem ends_ret {a : α} {s : σ} : (ret a : Prog σ ε ℓ α).Ends exec post s ↔ post (.ok a) s :=
  Iff.rfl

theorem ends_bind {β : Type} {post : Except ε β → σ → Prop} {p : Prog σ ε ℓ α}
    {k : α → Prog σ ε ℓ β} {s : σ} :
    (p.bind k).Ends exec post s ↔
      p.Ends exec (fun r s' =>
        match r with
        | .ok a => (k a).Ends exec post s'
        | .error e => post (.error e) s') s := by
  unfold Ends
  rw [run_bind]
  cases hp : p.run exec s with
  | mk r s' => cases r <;> rfl

theorem ends_tryCatch {p : Prog σ ε ℓ α} {h : ε → Prog σ ε ℓ α} {s : σ} :
    (p.tryCatch h).Ends exec post s ↔
      p.Ends exec (fun r s' =>
        match r with
        | .ok a => post (.ok a) s'
        | .error e => (h e).Ends exec post s') s := by
  unfold Ends
  rw [run_tryCatch]
  cases hp : p.run exec s with
  | mk r s' => cases r <;> rfl

theorem ends_send {l : ℓ} {view : σ → α} {s : σ} :
    (send l view).Ends exec post s ↔
      match exec l s with
      | .ok s' => post (.ok (view s)) s'
      | .error e => post (.error e) s := by
  unfold Ends
  rw [run_send]
  cases exec l s <;> rfl

theorem Ends.weaken {post' : Except ε α → σ → Prop} {p : Prog σ ε ℓ α} {s : σ}
    (h : p.Ends exec post s) (hpost : ∀ r s, post r s → post' r s) : p.Ends exec post' s :=
  hpost _ _ h

variable (exec) in
def sent : Prog σ ε ℓ α → σ → List ℓ
  | .ret _, _ => []
  | .throw _, _ => []
  | .stmt l n c, s =>
    match exec l s with
    | .ok s' => l :: (n s).sent s'
    | .error e => (c e).sent s

variable (exec) in
/-- `p`, run alone from `s`, ends with `post`, which also sees the statements it executed. -/
def Traces (post : Except ε α → List ℓ → σ → Prop) (p : Prog σ ε ℓ α) (s : σ) : Prop :=
  post (p.run exec s).1 (p.sent exec s) (p.run exec s).2

section Traces

variable {post : Except ε α → List ℓ → σ → Prop}

theorem traces_stmt {l : ℓ} {n : σ → Prog σ ε ℓ α} {c : ε → Prog σ ε ℓ α} {s : σ} :
    (stmt l n c).Traces exec post s ↔
      match exec l s with
      | .ok s' => (n s).Traces exec (fun r ls => post r (l :: ls)) s'
      | .error e => (c e).Traces exec post s := by
  unfold Traces
  rw [run_stmt, sent]
  cases exec l s <;> rfl

theorem Traces.weaken {post' : Except ε α → List ℓ → σ → Prop} {p : Prog σ ε ℓ α} {s : σ}
    (h : p.Traces exec post s) (hpost : ∀ r ls s, post r ls s → post' r ls s) :
    p.Traces exec post' s :=
  hpost _ _ _ h

theorem traces_bind {β : Type} {post : Except ε β → List ℓ → σ → Prop} {p : Prog σ ε ℓ α}
    {k : α → Prog σ ε ℓ β} {s : σ} :
    (p.bind k).Traces exec post s ↔
      p.Traces exec (fun r ls s' =>
        match r with
        | .ok a => (k a).Traces exec (fun r' ls' => post r' (ls ++ ls')) s'
        | .error e => post (.error e) ls s') s := by
  induction p generalizing s post with
  | ret a => rfl
  | throw e => rfl
  | stmt l n c hn hc =>
    rw [stmt_bind, traces_stmt, traces_stmt]
    cases exec l s with
    | ok s' => exact hn s
    | error e => exact hc e

theorem traces_tryCatch {p : Prog σ ε ℓ α} {h : ε → Prog σ ε ℓ α} {s : σ} :
    (p.tryCatch h).Traces exec post s ↔
      p.Traces exec (fun r ls s' =>
        match r with
        | .ok a => post (.ok a) ls s'
        | .error e => (h e).Traces exec (fun r' ls' => post r' (ls ++ ls')) s') s := by
  induction p generalizing s post with
  | ret a => rfl
  | throw e => rfl
  | stmt l n c hn hc =>
    rw [tryCatch, traces_stmt, traces_stmt]
    cases exec l s with
    | ok s' => exact hn s
    | error e => exact hc e

theorem traces_send {l : ℓ} {view : σ → α} {s : σ} :
    (send l view).Traces exec post s ↔
      match exec l s with
      | .ok s' => post (.ok (view s)) [l] s'
      | .error e => post (.error e) [] s := by
  rw [send, traces_stmt]
  rfl

end Traces

end Sequential

/-- Every statement the handler can ever send, whatever it reads, satisfies `P`. -/
def Sends (P : ℓ → Prop) : Prog σ ε ℓ α → Prop
  | .ret _ => True
  | .throw _ => True
  | .stmt l n c => P l ∧ (∀ s, (n s).Sends P) ∧ ∀ e, (c e).Sends P

section Footprint

variable {P Q : ℓ → Prop}

theorem Sends.ret {a : α} : (Prog.ret a : Prog σ ε ℓ α).Sends P := trivial

theorem Sends.throw {e : ε} : (Prog.throw e : Prog σ ε ℓ α).Sends P := trivial

theorem Sends.send {l : ℓ} {view : σ → α} (h : P l) : (Prog.send l view : Prog σ ε ℓ α).Sends P :=
  ⟨h, fun _ => trivial, fun _ => trivial⟩

theorem Sends.bind {p : Prog σ ε ℓ α} {k : α → Prog σ ε ℓ β} (hp : p.Sends P)
    (hk : ∀ a, (k a).Sends P) : (p.bind k).Sends P := by
  induction p with
  | ret a => exact hk a
  | throw e => trivial
  | stmt l n c hn hc => exact ⟨hp.1, fun s => hn s (hp.2.1 s), fun e => hc e (hp.2.2 e)⟩

theorem Sends.tryCatch {p : Prog σ ε ℓ α} {h : ε → Prog σ ε ℓ α} (hp : p.Sends P)
    (hh : ∀ e, (h e).Sends P) : (p.tryCatch h).Sends P := by
  induction p with
  | ret a => trivial
  | throw e => exact hh e
  | stmt l n c hn hc => exact ⟨hp.1, fun s => hn s (hp.2.1 s), fun e => hc e (hp.2.2 e)⟩

theorem Sends.mono {p : Prog σ ε ℓ α} (h : p.Sends P) (hPQ : ∀ l, P l → Q l) : p.Sends Q := by
  induction p with
  | ret a => trivial
  | throw e => trivial
  | stmt l n c hn hc =>
    exact ⟨hPQ _ h.1, fun s => hn s (h.2.1 s), fun e => hc e (h.2.2 e)⟩

theorem Sends.of_forall (h : ∀ l, P l) (p : Prog σ ε ℓ α) : p.Sends P := by
  induction p with
  | ret a => trivial
  | throw e => trivial
  | stmt l n c hn hc => exact ⟨h l, hn, hc⟩

/-- What every statement of the footprint does to the store, a whole run does. -/
theorem Sends.run {exec : ℓ → σ → Except ε σ} {R : σ → σ → Prop} (hrefl : ∀ s, R s s)
    (htrans : ∀ s₁ s₂ s₃, R s₁ s₂ → R s₂ s₃ → R s₁ s₃)
    (hstep : ∀ l s s', P l → exec l s = .ok s' → R s s') {p : Prog σ ε ℓ α}
    (h : p.Sends P) (s : σ) :
    R s (p.run exec s).2 := by
  induction p generalizing s with
  | ret a => exact hrefl s
  | throw e => exact hrefl s
  | stmt l n c hn hc =>
    rw [run_stmt]
    cases he : exec l s with
    | ok s' => exact htrans _ _ _ (hstep l s s' h.1 he) (hn s (h.2.1 s) s')
    | error e => exact hc e (h.2.2 e) s

theorem Sends.sent {exec : ℓ → σ → Except ε σ} {p : Prog σ ε ℓ α} (h : p.Sends P) (s : σ) :
    ∀ l ∈ p.sent exec s, P l := by
  induction p generalizing s with
  | ret a => exact fun l hl => by cases hl
  | throw e => exact fun l hl => by cases hl
  | stmt m n c hn hc =>
    cases he : exec m s with
    | ok s' =>
      intro l hl
      simp only [Prog.sent, he, List.mem_cons] at hl
      rcases hl with rfl | hl
      · exact h.1
      · exact hn s (h.2.1 s) s' l hl
    | error e =>
      intro l hl
      simp only [Prog.sent, he] at hl
      exact hc e (h.2.2 e) s l hl

/-- Where in a run a statement was executed, and what the rest of the run did. -/
theorem Sends.mem_sent {exec : ℓ → σ → Except ε σ} {R : σ → σ → Prop} (hrefl : ∀ s, R s s)
    (htrans : ∀ s₁ s₂ s₃, R s₁ s₂ → R s₂ s₃ → R s₁ s₃)
    (hstep : ∀ l s s', P l → exec l s = .ok s' → R s s') {p : Prog σ ε ℓ α} (h : p.Sends P)
    {s : σ} {l : ℓ} (hmem : l ∈ p.sent exec s) :
    ∃ s₁ s₂, exec l s₁ = .ok s₂ ∧ R s s₁ ∧ R s₂ (p.run exec s).2 := by
  induction p generalizing s with
  | ret a => cases hmem
  | throw e => cases hmem
  | stmt m n c hn hc =>
    rw [run_stmt]
    cases he : exec m s with
    | ok s' =>
      simp only [Prog.sent, he, List.mem_cons] at hmem
      rcases hmem with rfl | hmem
      · exact ⟨s, s', he, hrefl s, (h.2.1 s).run hrefl htrans hstep s'⟩
      · obtain ⟨s₁, s₂, hl, hbefore, hafter⟩ := hn s (h.2.1 s) hmem
        exact ⟨s₁, s₂, hl, htrans _ _ _ (hstep m s s' h.1 he) hbefore, hafter⟩
    | error e =>
      simp only [Prog.sent, he] at hmem
      exact hc e (h.2.2 e) hmem

theorem mem_sent {exec : ℓ → σ → Except ε σ} {R : σ → σ → Prop} (hrefl : ∀ s, R s s)
    (htrans : ∀ s₁ s₂ s₃, R s₁ s₂ → R s₂ s₃ → R s₁ s₃)
    (hstep : ∀ l s s', exec l s = .ok s' → R s s') {p : Prog σ ε ℓ α} {s : σ} {l : ℓ}
    (hmem : l ∈ p.sent exec s) :
    ∃ s₁ s₂, exec l s₁ = .ok s₂ ∧ R s s₁ ∧ R s₂ (p.run exec s).2 :=
  (Sends.of_forall (P := fun _ => True) (fun _ => trivial) p).mem_sent hrefl htrans
    (fun l s s' _ => hstep l s s') hmem

/-- What the statements that a run executed do to the store, the run does. -/
theorem run_of_sent {exec : ℓ → σ → Except ε σ} {R : σ → σ → Prop} (hrefl : ∀ s, R s s)
    (htrans : ∀ s₁ s₂ s₃, R s₁ s₂ → R s₂ s₃ → R s₁ s₃)
    (hstep : ∀ l s s', P l → exec l s = .ok s' → R s s') (p : Prog σ ε ℓ α) (s : σ)
    (h : ∀ l ∈ p.sent exec s, P l) : R s (p.run exec s).2 := by
  induction p generalizing s with
  | ret a => exact hrefl s
  | throw e => exact hrefl s
  | stmt m n c hn hc =>
    rw [run_stmt]
    cases he : exec m s with
    | ok s' =>
      simp only [Prog.sent, he, List.forall_mem_cons] at h
      exact htrans _ _ _ (hstep m s s' h.1 he) (hn s s' h.2)
    | error e =>
      simp only [Prog.sent, he] at h
      exact hc e s h

end Footprint

section Invariants

variable (exec : ℓ → σ → Except ε σ) (Inv : σ → Prop)

/-- Run alone from a store with `Inv`, `p` leaves one. -/
def Maintains (p : Prog σ ε ℓ α) : Prop := ∀ s, Inv s → Inv (p.run exec s).2

variable {exec Inv}

theorem Maintains.ret {a : α} : (Prog.ret a : Prog σ ε ℓ α).Maintains exec Inv := fun _ hs => hs

theorem Maintains.throw {e : ε} : (Prog.throw e : Prog σ ε ℓ α).Maintains exec Inv := fun _ hs => hs

theorem Maintains.bind {p : Prog σ ε ℓ α} {k : α → Prog σ ε ℓ β} (hp : p.Maintains exec Inv)
    (hk : ∀ a, (k a).Maintains exec Inv) : (p.bind k).Maintains exec Inv := by
  intro s hs
  have hmid := hp s hs
  rw [run_bind]
  cases hrun : p.run exec s with
  | mk r s' =>
    rw [hrun] at hmid
    cases r with
    | ok a => exact hk a s' hmid
    | error e => exact hmid

theorem Maintains.of_sends {P : ℓ → Prop} {p : Prog σ ε ℓ α} (h : p.Sends P)
    (hstep : ∀ l s s', P l → exec l s = .ok s' → Inv s → Inv s') : p.Maintains exec Inv :=
  h.run (R := fun s s' => Inv s → Inv s') (fun _ => id) (fun _ _ _ h₁ h₂ => h₂ ∘ h₁) hstep

theorem Maintains.of_exec (hstep : ∀ l s s', exec l s = .ok s' → Inv s → Inv s')
    (p : Prog σ ε ℓ α) :
    p.Maintains exec Inv :=
  .of_sends (.of_forall (P := fun _ => True) (fun _ => trivial) p) fun l s s' _ => hstep l s s'

end Invariants

section Results

/-- Every result the handler can return, whatever it reads, satisfies `Q`. -/
def Returns (Q : α → Prop) : Prog σ ε ℓ α → Prop
  | .ret a => Q a
  | .throw _ => True
  | .stmt _ n c => (∀ s, (n s).Returns Q) ∧ ∀ e, (c e).Returns Q

theorem returns_true (p : Prog σ ε ℓ α) : p.Returns (fun _ => True) := by
  induction p with
  | ret a => trivial
  | throw e => trivial
  | stmt l n c hn hc => exact ⟨hn, hc⟩

theorem Returns.mono {Q Q' : α → Prop} {p : Prog σ ε ℓ α} (h : p.Returns Q)
    (hQ : ∀ a, Q a → Q' a) : p.Returns Q' := by
  induction p with
  | ret a => exact hQ a h
  | throw e => trivial
  | stmt l n c hn hc => exact ⟨fun s => hn s (h.1 s), fun e => hc e (h.2 e)⟩

theorem Returns.send {Q : α → Prop} {l : ℓ} {view : σ → α} (h : ∀ s, Q (view s)) :
    (send l view : Prog σ ε ℓ α).Returns Q := ⟨h, fun _ => trivial⟩

theorem Returns.tryCatch {Q : α → Prop} {p : Prog σ ε ℓ α} {h : ε → Prog σ ε ℓ α}
    (hp : p.Returns Q) (hh : ∀ e, (h e).Returns Q) : (p.tryCatch h).Returns Q := by
  induction p with
  | ret a => exact hp
  | throw e => exact hh e
  | stmt l n c hn hc => exact ⟨fun s => hn s (hp.1 s), fun e => hc e (hp.2 e)⟩

theorem Returns.bind {Q : β → Prop} {p : Prog σ ε ℓ α} {k : α → Prog σ ε ℓ β}
    (hk : ∀ a, (k a).Returns Q) : (p.bind k).Returns Q := by
  induction p with
  | ret a => exact hk a
  | throw e => trivial
  | stmt l n c hn hc => exact ⟨fun s => hn s, fun e => hc e⟩

theorem Returns.run {Q : α → Prop} {exec : ℓ → σ → Except ε σ} {p : Prog σ ε ℓ α}
    (h : p.Returns Q) {s : σ} {a : α} (hrun : (p.run exec s).1 = .ok a) : Q a := by
  induction p generalizing s with
  | ret b =>
    cases hrun
    exact h
  | throw e => cases hrun
  | stmt l n c hn hc =>
    rw [run_stmt] at hrun
    cases hl : exec l s with
    | ok s' => exact hn s (h.1 s) (by simpa [hl] using hrun)
    | error e => exact hc e (h.2 e) (by simpa [hl] using hrun)

end Results

end Prog

end Handler
