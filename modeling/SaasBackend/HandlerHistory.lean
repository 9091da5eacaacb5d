import SaasBackend.HandlerInterleaving

set_option autoImplicit false

namespace Handler

variable {ρ σ ε ℓ α : Type}

/-- A request that has been served: the store it met, its answer, the store it left. -/
structure Entry (ρ σ ε α : Type) where
  req : ρ
  pre : σ
  res : Except ε α
  post : σ

section

variable (exec : ℓ → σ → Except ε σ) (prog : ρ → Prog σ ε ℓ α)

def serve (s : σ) (r : ρ) : Entry ρ σ ε α :=
  ⟨r, s, ((prog r).run exec s).1, ((prog r).run exec s).2⟩

/-- One request served to completion; `allowed` says which may arrive at which store. -/
inductive Served (allowed : σ → ρ → Prop) : σ → Entry ρ σ ε α → σ → Prop where
  | mk {s : σ} {r : ρ} : allowed s r →
      Served allowed s (serve exec prog s r) (serve exec prog s r).post

def serveAll : List ρ → List (Entry ρ σ ε α) × σ → List (Entry ρ σ ε α) × σ
  | [], hs => hs
  | r :: rest, (h, s) => serveAll rest (serve exec prog s r :: h, (serve exec prog s r).post)

variable {exec prog}

/-- An invariant of the store and the history so far holds in every run. -/
theorem Served.invariant {allowed : σ → ρ → Prop} (I : List (Entry ρ σ ε α) → σ → Prop) {s₀ s : σ}
    {h : List (Entry ρ σ ε α)} (h₀ : I [] s₀)
    (hstep : ∀ h s r, I h s → allowed s r →
      (prog r).Ends exec (fun res s' => I (⟨r, s, res, s'⟩ :: h) s') s)
    (hrun : Steps (Served exec prog allowed) s₀ h s) : I h s := by
  refine Steps.invariant I h₀ (fun h s e s' hI he => ?_) hrun
  cases he with
  | mk ha => exact hstep h s _ hI ha

theorem Served.mem {allowed : σ → ρ → Prop} {s₀ s : σ} {h : List (Entry ρ σ ε α)}
    (hrun : Steps (Served exec prog allowed) s₀ h s) {e : Entry ρ σ ε α} (he : e ∈ h) :
    e = serve exec prog e.pre e.req ∧ allowed e.pre e.req ∧
      ∃ h₁, Steps (Served exec prog allowed) s₀ h₁ e.pre := by
  induction hrun with
  | refl => cases he
  | snoc hbefore hserved ih =>
    rcases List.mem_cons.mp he with rfl | hold
    · cases hserved with
      | mk hallowed => exact ⟨rfl, hallowed, _, hbefore⟩
    · exact ih hold

theorem Served.eq_serve {allowed : σ → ρ → Prop} {s s' : σ} {e : Entry ρ σ ε α}
    (h : Served exec prog allowed s e s') : e = serve exec prog e.pre e.req := by
  cases h
  rfl

theorem Served.around {allowed : σ → ρ → Prop} {s₀ s : σ} {before after : List (Entry ρ σ ε α)}
    {e : Entry ρ σ ε α} (hrun : Steps (Served exec prog allowed) s₀ (after ++ e :: before) s) :
    Steps (Served exec prog allowed) s₀ before e.pre ∧ Served exec prog allowed e.pre e e.post ∧
      Steps (Served exec prog allowed) e.post after s := by
  obtain ⟨s', hupto, hafter⟩ := Steps.split hrun
  cases hupto with
  | snoc hbefore hserved =>
    cases hserved with
    | mk hallowed => exact ⟨hbefore, .mk hallowed, hafter⟩

theorem Served.related {allowed : σ → ρ → Prop} {R : σ → σ → Prop} (hrefl : ∀ s, R s s)
    (htrans : ∀ s₁ s₂ s₃, R s₁ s₂ → R s₂ s₃ → R s₁ s₃)
    (hprog : ∀ s r, allowed s r → R s ((prog r).run exec s).2) {s₀ s : σ} {h : List (Entry ρ σ ε α)}
    (hrun : Steps (Served exec prog allowed) s₀ h s) : R s₀ s := by
  induction hrun with
  | refl => exact hrefl s₀
  | snoc _ hserved ih =>
    cases hserved with
    | mk hallowed => exact htrans _ _ _ ih (hprog _ _ hallowed)

theorem serveAll_steps {allowed : σ → ρ → Prop} (rs : List ρ) (hrs : ∀ r ∈ rs, ∀ s, allowed s r)
    (h : List (Entry ρ σ ε α)) {s₀ s : σ} (hrun : Steps (Served exec prog allowed) s₀ h s) :
    Steps (Served exec prog allowed) s₀ (serveAll exec prog rs (h, s)).1
      (serveAll exec prog rs (h, s)).2 := by
  induction rs generalizing h s with
  | nil => exact hrun
  | cons r rest ih =>
    exact ih (fun r' hr' => hrs r' (by simp [hr'])) _ (.snoc hrun (.mk (hrs r (by simp) s)))

def Admitted (exec : ℓ → σ → Except ε σ) (prog : ρ → Prog σ ε ℓ α) (allowed : σ → ρ → Prop) :
    List ρ → σ → Prop
  | [], _ => True
  | r :: rest, s => allowed s r ∧ Admitted exec prog allowed rest (serve exec prog s r).post

theorem Admitted.steps {allowed : σ → ρ → Prop} {rs : List ρ} {s₀ s : σ}
    (hrs : Admitted exec prog allowed rs s) {h : List (Entry ρ σ ε α)}
    (hrun : Steps (Served exec prog allowed) s₀ h s) :
    Steps (Served exec prog allowed) s₀ (serveAll exec prog rs (h, s)).1
      (serveAll exec prog rs (h, s)).2 := by
  induction rs generalizing h s with
  | nil => exact hrun
  | cons r rest ih => exact ih hrs.2 (.snoc hrun (.mk hrs.1))

end

end Handler
