import SaasBackend.HandlerRecall

set_option autoImplicit false

namespace Handler

variable {ρ σ ε ℓ α δ β r : Type}

structure Column (r δ β : Type) where
  read : r → β
  sets : δ → Option β

/-- After the patches, newest first, a row has in the column what the newest of them that
sets it puts there, or what it had at first. -/
def Column.Settled (col : Column r δ β) (writes : List (Nat × δ)) (a a' : r) : Prop :=
  (∃ newer i d v older, writes = newer ++ (i, d) :: older ∧ col.sets d = some v ∧
    (∀ e ∈ newer, col.sets e.2 = none) ∧ col.read a' = v) ∨
  ((∀ e ∈ writes, col.sets e.2 = none) ∧ col.read a' = col.read a)

section Column

variable {col : Column r δ β} {writes : List (Nat × δ)} {a a' a'' : r}

theorem Column.settled_nil (h : col.read a' = col.read a) : col.Settled [] a a' :=
  .inr ⟨by simp, h⟩

theorem Column.Settled.same (h : col.Settled writes a a') (hread : col.read a'' = col.read a') :
    col.Settled writes a a'' := by
  simpa only [Column.Settled, hread] using h

theorem Column.Settled.cons {i : Nat} {d : δ} (h : col.Settled writes a a')
    (hread : col.read a'' = (col.sets d).getD (col.read a')) :
    col.Settled ((i, d) :: writes) a a'' := by
  cases hd : col.sets d with
  | some v =>
    refine .inl ⟨[], i, d, v, writes, rfl, hd, by simp, ?_⟩
    rw [hread, hd, Option.getD_some]
  | none =>
    rw [hd, Option.getD_none] at hread
    rcases h with ⟨newer, j, e, v, older, rfl, he, hnewer, hv⟩ | ⟨hnone, hfirst⟩
    · exact .inl ⟨(i, d) :: newer, j, e, v, older, rfl, he,
        List.forall_mem_cons.mpr ⟨hd, hnewer⟩, hread.trans hv⟩
    · exact .inr ⟨List.forall_mem_cons.mpr ⟨hd, hnone⟩, hread.trans hfirst⟩

end Column

section Runs

variable (exec : ℓ → σ → Except ε σ) (patch : ℓ → Option δ)

def written : List (Event ρ σ ℓ) → List (Nat × δ)
  | [] => []
  | .arrive _ :: tr => written tr
  | .fire i l s _ :: tr =>
    match exec l s, patch l with
    | .ok _, some d => (i, d) :: written tr
    | _, _ => written tr

variable {exec patch} {tr : List (Event ρ σ ℓ)}

theorem mem_written {i : Nat} {d : δ} :
    (i, d) ∈ written exec patch tr ↔ ∃ e ∈ own exec i tr, patch e.1 = some d := by
  induction tr with
  | nil => simp [written, own]
  | cons e tr ih =>
    cases e with
    | arrive r => exact ih
    | fire j l s s' =>
      cases hexec : exec l s with
      | error err => by_cases hji : j = i <;> simp [written, own, hexec, hji, ih]
      | ok t =>
        cases hd : patch l with
        | none => by_cases hji : j = i <;> simp [written, own, hexec, hd, hji, ih]
        | some d' =>
          by_cases hji : j = i
          · simp [written, own, hexec, hd, hji, ih, eq_comm]
          · simp [written, own, hexec, hd, hji, Ne.symm hji, ih]

theorem written_fst :
    (written exec patch tr).map (·.1) = passed exec (fun l => (patch l).isSome) tr := by
  induction tr with
  | nil => simp [written, passed]
  | cons e tr ih =>
    cases e with
    | arrive r => exact ih
    | fire j l s s' =>
      cases hexec : exec l s with
      | error err => simp [written, passed, hexec, ih]
      | ok t => cases hd : patch l <;> simp [written, passed, hexec, hd, ih]

/-- A column of a row, which every statement leaves but those that patch it. -/
structure Tracked (exec : ℓ → σ → Except ε σ) (patch : ℓ → Option δ) (row : σ → Option r)
    (I : σ → Prop) (col : Column r δ β) : Prop where
  kept : ∀ l s s', I s → exec l s = .ok s' → I s'
  step : ∀ l s s' a', I s → exec l s = .ok s' → row s' = some a' → ∃ a, row s = some a ∧
    col.read a' = ((patch l).bind col.sets).getD (col.read a)

theorem Tracked.run {row : σ → Option r} {I : σ → Prop} {col : Column r δ β}
    (h : Tracked exec patch row I col) {prog : ρ → Prog σ ε ℓ α} {may : ρ → Prop}
    {cond : σ → ℓ → Prop} {c₀ c : Config ρ σ ε ℓ α}
    (hsteps : Steps (Step exec prog may cond) c₀ tr c) (h₀ : I c₀.store) :
    I c.store ∧ ∀ a', row c.store = some a' → ∃ a, row c₀.store = some a ∧
      col.Settled (written exec patch tr) a a' := by
  induction hsteps with
  | refl => exact ⟨h₀, fun a' ha => ⟨a', ha, Column.settled_nil rfl⟩⟩
  | @snoc tr c₁ _ e hbefore hstep ih =>
    obtain ⟨hI, hrow⟩ := ih
    cases hstep with
    | arrive hr => exact ⟨hI, hrow⟩
    | @fire i _ l _ _ hi _ =>
      cases hexec : exec l c₁.store with
      | error err =>
        rw [Config.advance_error exec hi hexec]
        exact ⟨hI, fun a' ha => by simpa [written, hexec] using hrow a' ha⟩
      | ok s =>
        rw [Config.advance_ok exec hi hexec]
        refine ⟨h.kept l _ s hI hexec, fun a' ha => ?_⟩
        obtain ⟨b, hb, hread⟩ := h.step l _ s a' hI hexec ha
        obtain ⟨a, ha₀, hsettled⟩ := hrow b hb
        refine ⟨a, ha₀, ?_⟩
        cases hd : patch l with
        | none =>
          rw [hd] at hread
          simpa [written, hexec, hd] using hsettled.same hread
        | some d =>
          rw [hd] at hread
          simpa [written, hexec, hd] using hsettled.cons hread

end Runs

end Handler
