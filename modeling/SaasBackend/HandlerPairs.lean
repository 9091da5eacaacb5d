import SaasBackend.HandlerProgram

set_option autoImplicit false

namespace Handler

variable {σ ε ℓ α β : Type}

namespace Prog

section

variable (exec : ℓ → σ → Except ε σ)

/-- The runs of `p` from `s₁` and `s₂` have the same result and end with `post`. -/
def Together (post : Except ε α → σ → σ → Prop) (p : Prog σ ε ℓ α) (s₁ s₂ : σ) : Prop :=
  (p.run exec s₁).1 = (p.run exec s₂).1 ∧ post (p.run exec s₁).1 (p.run exec s₁).2 (p.run exec s₂).2

def ReadsSame (Q : α → Prop) (p : Prog σ ε ℓ α) (s₁ s₂ : σ) : Prop :=
  p.Together exec (fun r t₁ t₂ => t₁ = s₁ ∧ t₂ = s₂ ∧ ∀ a, r = .ok a → Q a) s₁ s₂

variable {exec} {s₁ s₂ : σ}

section Together

variable {post : Except ε β → σ → σ → Prop}

theorem Together.ret {post : Except ε α → σ → σ → Prop} {a : α} (h : post (.ok a) s₁ s₂) :
    (Prog.ret a : Prog σ ε ℓ α).Together exec post s₁ s₂ := ⟨rfl, h⟩

theorem Together.throw {post : Except ε α → σ → σ → Prop} {e : ε} (h : post (.error e) s₁ s₂) :
    (Prog.throw e : Prog σ ε ℓ α).Together exec post s₁ s₂ := ⟨rfl, h⟩

theorem Together.weaken {post post' : Except ε α → σ → σ → Prop} {p : Prog σ ε ℓ α}
    (h : p.Together exec post s₁ s₂) (hpost : ∀ r t₁ t₂, post r t₁ t₂ → post' r t₁ t₂) :
    p.Together exec post' s₁ s₂ := ⟨h.1, hpost _ _ _ h.2⟩

theorem Together.bind {Q : Except ε α → σ → σ → Prop} {p : Prog σ ε ℓ α} {k : α → Prog σ ε ℓ β}
    (hp : p.Together exec Q s₁ s₂)
    (hok : ∀ a t₁ t₂, Q (.ok a) t₁ t₂ → (k a).Together exec post t₁ t₂)
    (herr : ∀ e t₁ t₂, Q (.error e) t₁ t₂ → post (.error e) t₁ t₂) :
    (p.bind k).Together exec post s₁ s₂ := by
  obtain ⟨hsame, hmid⟩ := hp
  unfold Together
  rw [run_bind, run_bind]
  cases h₁ : p.run exec s₁ with
  | mk r₁ t₁ =>
    cases h₂ : p.run exec s₂ with
    | mk r₂ t₂ =>
      rw [h₁, h₂] at hsame hmid
      simp only [] at hsame hmid
      subst hsame
      cases r₁ with
      | ok a => exact hok a t₁ t₂ hmid
      | error e => exact ⟨rfl, herr e t₁ t₂ hmid⟩

theorem Together.send_bind {l : ℓ} {view : σ → α} {k : α → Prog σ ε ℓ β} (hview : view s₁ = view s₂)
    (hexec : (∃ e, exec l s₁ = .error e ∧ exec l s₂ = .error e ∧ post (.error e) s₁ s₂) ∨
      ∃ t₁ t₂, exec l s₁ = .ok t₁ ∧ exec l s₂ = .ok t₂ ∧ (k (view s₁)).Together exec post t₁ t₂) :
    ((Prog.send l view).bind k).Together exec post s₁ s₂ := by
  unfold Together
  rw [Prog.send_bind, run_stmt, run_stmt, ← hview]
  rcases hexec with ⟨e, h₁, h₂, hpost⟩ | ⟨t₁, t₂, h₁, h₂, hnext⟩
  · rw [h₁, h₂]
    exact ⟨rfl, hpost⟩
  · rw [h₁, h₂]
    exact hnext

end Together

section Reads

theorem ReadsSame.ret {Q : α → Prop} {a : α} (h : Q a) :
    (Prog.ret a : Prog σ ε ℓ α).ReadsSame exec Q s₁ s₂ :=
  Together.ret ⟨rfl, rfl, fun _ heq => Except.ok.inj heq ▸ h⟩

theorem ReadsSame.throw {Q : α → Prop} {e : ε} :
    (Prog.throw e : Prog σ ε ℓ α).ReadsSame exec Q s₁ s₂ :=
  Together.throw ⟨rfl, rfl, fun _ heq => (by cases heq)⟩

theorem ReadsSame.together_bind {Q : α → Prop} {post : Except ε β → σ → σ → Prop} {p : Prog σ ε ℓ α}
    {k : α → Prog σ ε ℓ β} (hp : p.ReadsSame exec Q s₁ s₂) (herr : ∀ e, post (.error e) s₁ s₂)
    (hok : ∀ a, Q a → (k a).Together exec post s₁ s₂) : (p.bind k).Together exec post s₁ s₂ := by
  refine Together.bind hp ?_ ?_
  · rintro a _ _ ⟨rfl, rfl, ha⟩
    exact hok a (ha a rfl)
  · rintro e _ _ ⟨rfl, rfl, _⟩
    exact herr e

theorem ReadsSame.bind {Q : α → Prop} {R : β → Prop} {p : Prog σ ε ℓ α} {k : α → Prog σ ε ℓ β}
    (hp : p.ReadsSame exec Q s₁ s₂) (hk : ∀ a, Q a → (k a).ReadsSame exec R s₁ s₂) :
    (p.bind k).ReadsSame exec R s₁ s₂ :=
      hp.together_bind (fun _ => ⟨rfl, rfl, fun _ heq => (by cases heq)⟩) hk

theorem ReadsSame.send {Q : α → Prop} {l : ℓ} {view : σ → α} (hidle : ∀ s, exec l s = .ok s)
    (hview : view s₁ = view s₂) (hQ : Q (view s₁)) : (Prog.send l view).ReadsSame exec Q s₁ s₂ := by
  unfold ReadsSame Together
  rw [run_send, run_send, hidle, hidle]
  exact ⟨by rw [hview], rfl, rfl, fun _ heq => Except.ok.inj heq ▸ hQ⟩

end Reads

section Paired

variable (exec) in
/-- From related stores `p` answers alike and leaves related stores. -/
def Paired (R : σ → σ → Prop) (p : Prog σ ε ℓ α) : Prop :=
  ∀ s₁ s₂, R s₁ s₂ → p.Together exec (fun _ => R) s₁ s₂

variable {R : σ → σ → Prop}

theorem Paired.ret {a : α} :
    (Prog.ret a : Prog σ ε ℓ α).Paired exec R := fun _ _ h => Together.ret h

theorem Paired.throw {e : ε} : (Prog.throw e : Prog σ ε ℓ α).Paired exec R :=
    fun _ _ h => Together.throw h

theorem Paired.bind {p : Prog σ ε ℓ α} {k : α → Prog σ ε ℓ β} (hp : p.Paired exec R)
    (hk : ∀ a, (k a).Paired exec R) : (p.bind k).Paired exec R :=
  fun _ _ h => (hp _ _ h).bind (fun a _ _ h => hk a _ _ h) fun _ _ _ h => h

theorem Paired.tryCatch {p : Prog σ ε ℓ α} {h : ε → Prog σ ε ℓ α} (hp : p.Paired exec R)
    (hh : ∀ e, (h e).Paired exec R) : (p.tryCatch h).Paired exec R := by
  intro s₁ s₂ hs
  obtain ⟨hsame, hmid⟩ := hp s₁ s₂ hs
  unfold Together
  rw [run_tryCatch, run_tryCatch]
  cases h₁ : p.run exec s₁ with
  | mk r₁ t₁ =>
    cases h₂ : p.run exec s₂ with
    | mk r₂ t₂ =>
      rw [h₁, h₂] at hsame hmid
      simp only [] at hsame hmid
      subst hsame
      cases r₁ with
      | ok a => exact ⟨rfl, hmid⟩
      | error e => exact hh e t₁ t₂ hmid

theorem Paired.send {l : ℓ} {view : σ → α} (hview : ∀ s₁ s₂, R s₁ s₂ → view s₁ = view s₂)
    (hexec : ∀ s₁ s₂, R s₁ s₂ → (∃ e, exec l s₁ = .error e ∧ exec l s₂ = .error e) ∨
      ∃ t₁ t₂, exec l s₁ = .ok t₁ ∧ exec l s₂ = .ok t₂ ∧ R t₁ t₂) :
    (Prog.send l view : Prog σ ε ℓ α).Paired exec R := by
  intro s₁ s₂ hs
  unfold Together
  rw [run_send, run_send]
  rcases hexec s₁ s₂ hs with ⟨e, h₁, h₂⟩ | ⟨t₁, t₂, h₁, h₂, ht⟩
  · rw [h₁, h₂]
    exact ⟨rfl, hs⟩
  · rw [h₁, h₂, hview s₁ s₂ hs]
    exact ⟨rfl, ht⟩

theorem Paired.maintains {I : σ → Prop} {p : Prog σ ε ℓ α}
    (h : p.Paired exec (fun s₁ s₂ => s₂ = s₁ ∧ I s₁)) :
    p.Maintains exec I := fun s hs => (h s s ⟨rfl, hs⟩).2.2

theorem Maintains.paired {I : σ → Prop} {p : Prog σ ε ℓ α} (h : p.Maintains exec I) :
    p.Paired exec (fun s₁ s₂ => s₂ = s₁ ∧ I s₁) := by
  rintro s _ ⟨rfl, hs⟩
  exact ⟨rfl, rfl, h _ hs⟩

end Paired

end

end Prog

end Handler
