import SaasBackend.HandlerHistory
import SaasBackend.HandlerRecall

/-! A handler written against a small store, run on a larger one that contains it; and
the statements that a handler cannot do without. -/

set_option autoImplicit false

namespace Handler

variable {σ σ' ε ℓ ℓ' α β : Type}

namespace Prog

theorem run_unit {exec : ℓ → σ → Except ε σ} (p : Prog σ ε ℓ α) (s : σ) :
    ((p.bind fun _ => .ret ()).run exec s).2 = (p.run exec s).2 := by
  rw [run_bind]
  cases p.run exec s with
  | mk r s' => cases r <;> rfl

/-- The same handler over a larger store: `inj` sends its statements there, `part`
is the small store it sees. -/
def embed (inj : ℓ → ℓ') (part : σ' → σ) : Prog σ ε ℓ α → Prog σ' ε ℓ' α
  | .ret a => .ret a
  | .throw e => .throw e
  | .stmt l n c =>
    .stmt (inj l) (fun s => (n (part s)).embed inj part) (fun e => (c e).embed inj part)

section Embedding

variable {inj : ℓ → ℓ'} {part : σ' → σ}

theorem Sends.embed {P : ℓ → Prop} {Q : ℓ' → Prop} (hP : ∀ l, P l → Q (inj l))
    {p : Prog σ ε ℓ α} (h : p.Sends P) : (p.embed inj part).Sends Q := by
  induction p with
  | ret a => trivial
  | throw e => trivial
  | stmt l n c hn hc =>
    exact ⟨hP l h.1, fun s => hn (part s) (h.2.1 (part s)), fun e => hc e (h.2.2 e)⟩

theorem Returns.embed {Q : α → Prop} {p : Prog σ ε ℓ α} (h : p.Returns Q) :
    (p.embed inj part).Returns Q := by
  induction p with
  | ret a => exact h
  | throw e => trivial
  | stmt l n c hn hc => exact ⟨fun s => hn (part s) (h.1 (part s)), fun e => hc e (h.2 e)⟩

variable {exec : ℓ → σ → Except ε σ} {exec' : ℓ' → σ' → Except ε σ'}

/-- The embedded run answers as the run on the part, and leaves that part as it does. -/
theorem run_embed (hexec : ∀ l s, (exec' (inj l) s).map part = exec l (part s))
    (p : Prog σ ε ℓ α) (s : σ') :
    ((p.embed inj part).run exec' s).1 = (p.run exec (part s)).1 ∧
      part ((p.embed inj part).run exec' s).2 = (p.run exec (part s)).2 := by
  induction p generalizing s with
  | ret a => exact ⟨rfl, rfl⟩
  | throw e => exact ⟨rfl, rfl⟩
  | stmt l n c hn hc =>
    have hl := hexec l s
    simp only [embed, run_stmt]
    cases he : exec' (inj l) s with
    | ok s' =>
      rw [he] at hl
      rw [← hl]
      exact hn (part s) s'
    | error e =>
      rw [he] at hl
      rw [← hl]
      exact hc e s

end Embedding

/-- No result before a statement that satisfies `P` has gone through. -/
def Needs (P : ℓ → Prop) : Prog σ ε ℓ α → Prop
  | .ret _ => False
  | .throw _ => True
  | .stmt l n c => (P l ∨ ∀ s, (n s).Needs P) ∧ ∀ e, (c e).Needs P

section Needs

variable {P : ℓ → Prop}

theorem Needs.throw {e : ε} : (Prog.throw e : Prog σ ε ℓ α).Needs P := trivial

theorem Needs.first {p : Prog σ ε ℓ α} {k : α → Prog σ ε ℓ β} (hp : p.Needs P) :
    (p.bind k).Needs P := by
  induction p with
  | ret a => cases hp
  | throw e => trivial
  | stmt l n c hn hc => exact ⟨hp.1.imp_right fun h s => hn s (h s), fun e => hc e (hp.2 e)⟩

theorem Needs.bind {Q : α → Prop} {p : Prog σ ε ℓ α} {k : α → Prog σ ε ℓ β} (hp : p.Returns Q)
    (hk : ∀ a, Q a → (k a).Needs P) : (p.bind k).Needs P := by
  induction p with
  | ret a => exact hk a hp
  | throw e => trivial
  | stmt l n c hn hc => exact ⟨.inr fun s => hn s (hp.1 s), fun e => hc e (hp.2 e)⟩

theorem Needs.send {l : ℓ} {view : σ → α} (hl : P l) : (Prog.send l view : Prog σ ε ℓ α).Needs P :=
  ⟨.inl hl, fun _ => trivial⟩

theorem Needs.embed {Q : ℓ' → Prop} {inj : ℓ → ℓ'} {part : σ' → σ} (hP : ∀ l, P l → Q (inj l))
    {p : Prog σ ε ℓ α} (hp : p.Needs P) : (p.embed inj part).Needs Q := by
  induction p with
  | ret a => exact hp
  | throw e => trivial
  | stmt l n c hn hc =>
    exact ⟨hp.1.imp (hP l) fun h s => hn (part s) (h (part s)), fun e => hc e (hp.2 e)⟩

/-- The history of a handler that has a result holds the statement it needed. -/
theorem Needs.along {exec : ℓ → σ → Except ε σ} {p : Prog σ ε ℓ α} (hp : p.Needs P)
    (h : List (ℓ × σ)) :
    p.Along exec (fun _ _ => True) (fun own _ => ∃ l s s', P l ∧ (l, s) ∈ own ∧
      exec l s = .ok s') h := by
  induction p generalizing h with
  | ret a => cases hp
  | throw e => trivial
  | stmt l n c hn hc =>
    refine ⟨trivial, fun s s' hexec => ?_, fun e => hc e (hp.2 e) h⟩
    rcases hp.1 with hl | hrest
    · refine .of_history (.of_forall (fun _ _ => trivial) _) fun a own hown => ?_
      exact ⟨l, s, s', hl, hown.subset List.mem_cons_self, hexec⟩
    · exact hn s (hrest s) _

end Needs

end Prog

end Handler
