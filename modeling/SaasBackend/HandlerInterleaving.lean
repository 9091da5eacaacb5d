import SaasBackend.HandlerProgram
import Mathlib.Data.List.Basic

/-! Any number of handlers running against one store, their statements interleaved
in every order. `Contract` is the rely/guarantee argument for invariants of the
store, and `Turnstile` the argument for "at most one of them gets through". -/

set_option autoImplicit false

namespace Handler

variable {ρ σ ε ℓ α : Type}

/-- The store and the requests that have arrived so far, finished ones included;
a request keeps its position. -/
structure Config (ρ σ ε ℓ α : Type) where
  store : σ
  pool : List (ρ × Prog σ ε ℓ α)

/-- What happened in one step. A fired statement records the store it saw and the
store it left. -/
inductive Event (ρ σ ℓ : Type) where
  | arrive : ρ → Event ρ σ ℓ
  | fire : Nat → ℓ → σ → σ → Event ρ σ ℓ

/-- Labelled steps one after the other, the newest label first. -/
inductive Steps {γ τ : Type} (step : γ → τ → γ → Prop) (c₀ : γ) : List τ → γ → Prop where
  | refl : Steps step c₀ [] c₀
  | snoc {tr : List τ} {c c' : γ} {t : τ} :
      Steps step c₀ tr c → step c t c' → Steps step c₀ (t :: tr) c'

theorem Steps.invariant {γ τ : Type} {step : γ → τ → γ → Prop} {c₀ : γ}
    (I : List τ → γ → Prop) (h₀ : I [] c₀)
    (hstep : ∀ tr c t c', I tr c → step c t c' → I (t :: tr) c')
    {tr : List τ} {c : γ} (h : Steps step c₀ tr c) : I tr c := by
  induction h with
  | refl => exact h₀
  | snoc _ hs ih => exact hstep _ _ _ _ ih hs

theorem Steps.trans {γ τ : Type} {step : γ → τ → γ → Prop} {c₀ c₁ c₂ : γ} {tr₁ tr₂ : List τ}
    (h₁ : Steps step c₀ tr₁ c₁) (h₂ : Steps step c₁ tr₂ c₂) :
    Steps step c₀ (tr₂ ++ tr₁) c₂ := by
  induction h₂ with
  | refl => exact h₁
  | snoc _ hs ih => exact .snoc ih hs

theorem Steps.split {γ τ : Type} {step : γ → τ → γ → Prop} {c₀ c : γ} {tr₁ tr₂ : List τ}
    (h : Steps step c₀ (tr₂ ++ tr₁) c) : ∃ c₁, Steps step c₀ tr₁ c₁ ∧ Steps step c₁ tr₂ c := by
  induction tr₂ generalizing c with
  | nil => exact ⟨c, h, .refl⟩
  | cons e tr₂ ih =>
    cases h with
    | snoc hbefore hlast =>
      obtain ⟨c₁, hfirst, hrest⟩ := ih hbefore
      exact ⟨c₁, hfirst, .snoc hrest hlast⟩

theorem Steps.mono {γ τ : Type} {step step' : γ → τ → γ → Prop} {c₀ c : γ} {tr : List τ}
    (hsub : ∀ c t c', step c t c' → step' c t c') (h : Steps step c₀ tr c) :
    Steps step' c₀ tr c := by
  induction h with
  | refl => exact .refl
  | snoc _ hs ih => exact .snoc ih (hsub _ _ _ hs)

section Semantics

variable (exec : ℓ → σ → Except ε σ) (prog : ρ → Prog σ ε ℓ α)

namespace Config

def arrive (c : Config ρ σ ε ℓ α) (r : ρ) : Config ρ σ ε ℓ α := ⟨c.store, c.pool ++ [(r, prog r)]⟩

/-- Request `i` sends its next statement; a finished request does nothing. -/
def advance (c : Config ρ σ ε ℓ α) (i : Nat) : Config ρ σ ε ℓ α :=
  match c.pool[i]? with
  | some (r, .stmt l n k) =>
    match exec l c.store with
    | .ok s => ⟨s, c.pool.set i (r, n c.store)⟩
    | .error e => ⟨c.store, c.pool.set i (r, k e)⟩
  | _ => c

/-- A schedule: arrivals and the positions that fire, in order. -/
def play (c : Config ρ σ ε ℓ α) : List (ρ ⊕ Nat) → Config ρ σ ε ℓ α
  | [] => c
  | .inl r :: rest => (c.arrive prog r).play rest
  | .inr i :: rest => (c.advance exec i).play rest

end Config

/-- `may` says which requests may arrive, `cond` which statements the run is
assumed to fire on which stores. -/
inductive Step (may : ρ → Prop) (cond : σ → ℓ → Prop) :
    Config ρ σ ε ℓ α → Event ρ σ ℓ → Config ρ σ ε ℓ α → Prop where
  | arrive {c : Config ρ σ ε ℓ α} {r : ρ} : may r → Step may cond c (.arrive r) (c.arrive prog r)
  | fire {c : Config ρ σ ε ℓ α} {i : Nat} {r : ρ} {l : ℓ} {n : σ → Prog σ ε ℓ α}
      {k : ε → Prog σ ε ℓ α} :
      c.pool[i]? = some (r, .stmt l n k) → cond c.store l →
      Step may cond c (.fire i l c.store (c.advance exec i).store) (c.advance exec i)

theorem Config.advance_ok {c : Config ρ σ ε ℓ α} {i : Nat} {r : ρ} {l : ℓ}
    {n : σ → Prog σ ε ℓ α} {k : ε → Prog σ ε ℓ α} {s : σ}
    (hi : c.pool[i]? = some (r, .stmt l n k)) (hs : exec l c.store = .ok s) :
    c.advance exec i = ⟨s, c.pool.set i (r, n c.store)⟩ := by
  simp [advance, hi, hs]

theorem Config.advance_error {c : Config ρ σ ε ℓ α} {i : Nat} {r : ρ} {l : ℓ}
    {n : σ → Prog σ ε ℓ α} {k : ε → Prog σ ε ℓ α} {e : ε}
    (hi : c.pool[i]? = some (r, .stmt l n k)) (hs : exec l c.store = .error e) :
    c.advance exec i = ⟨c.store, c.pool.set i (r, k e)⟩ := by
  simp [advance, hi, hs]

theorem Config.advance_length (c : Config ρ σ ε ℓ α) (i : Nat) :
    (c.advance exec i).pool.length = c.pool.length := by
  unfold advance
  split
  · split <;> simp
  · rfl

theorem Config.advance_pool_of_ne {i j : Nat} (c : Config ρ σ ε ℓ α) (hne : i ≠ j) :
    (c.advance exec i).pool[j]? = c.pool[j]? := by
  unfold advance
  split
  · split <;> simp [List.getElem?_set_ne hne]
  · rfl

/-- The request a configuration holds at a position after `advance`: the one that
fired has moved on, every other one is where it was. -/
theorem Config.advance_pool {c : Config ρ σ ε ℓ α} {i j : Nat} {r : ρ} {l : ℓ}
    {n : σ → Prog σ ε ℓ α} {k : ε → Prog σ ε ℓ α} {q : ρ × Prog σ ε ℓ α}
    (hi : c.pool[i]? = some (r, .stmt l n k)) (hj : (c.advance exec i).pool[j]? = some q) :
    (i ≠ j ∧ c.pool[j]? = some q) ∨
      (i = j ∧ ((∃ s, exec l c.store = .ok s ∧ q = (r, n c.store)) ∨
        ∃ e, exec l c.store = .error e ∧ q = (r, k e))) := by
  by_cases hij : i = j
  · subst hij
    have hlt : i < c.pool.length := (List.getElem?_eq_some_iff.mp hi).1
    refine .inr ⟨rfl, ?_⟩
    cases hs : exec l c.store with
    | ok s =>
      simp [advance_ok exec hi hs, hlt] at hj
      exact .inl ⟨s, rfl, hj.symm⟩
    | error e =>
      simp [advance_error exec hi hs, hlt] at hj
      exact .inr ⟨e, rfl, hj.symm⟩
  · refine .inl ⟨hij, ?_⟩
    cases hs : exec l c.store with
    | ok s => simpa [advance_ok exec hi hs, List.getElem?_set_ne hij] using hj
    | error e => simpa [advance_error exec hi hs, List.getElem?_set_ne hij] using hj

theorem Config.arrive_pool {c : Config ρ σ ε ℓ α} {r : ρ} {j : Nat} {q : ρ × Prog σ ε ℓ α}
    (hj : (c.arrive prog r).pool[j]? = some q) :
    c.pool[j]? = some q ∨ (j = c.pool.length ∧ q = (r, prog r)) := by
  simp only [arrive, List.getElem?_append] at hj
  split at hj
  · exact .inl hj
  · rename_i hlt
    have hsub : j - c.pool.length = 0 := by
      by_contra hne
      simp [hne] at hj
    simp [hsub] at hj
    exact .inr ⟨by omega, hj.symm⟩

def Config.obeys (check : σ → ℓ → Bool) (c : Config ρ σ ε ℓ α) : List (ρ ⊕ Nat) → Bool
  | [] => true
  | .inl r :: rest => (c.arrive prog r).obeys check rest
  | .inr i :: rest =>
    (match c.pool[i]? with
      | some (_, .stmt l _ _) => check c.store l
      | _ => true) && (c.advance exec i).obeys check rest

theorem Config.play_steps {may : ρ → Prop} {check : σ → ℓ → Bool} (sched : List (ρ ⊕ Nat))
    (hmay : ∀ r, .inl r ∈ sched → may r) (c : Config ρ σ ε ℓ α)
    (hobeys : c.obeys exec prog check sched = true) :
    ∃ tr, Steps (Step exec prog may (fun s l => check s l = true)) c tr
      (c.play exec prog sched) := by
  induction sched generalizing c with
  | nil => exact ⟨[], .refl⟩
  | cons a rest ih =>
    have hrest : ∀ r, .inl r ∈ rest → may r := fun r hr => hmay r (by simp [hr])
    cases a with
    | inl r =>
      obtain ⟨tr, h⟩ := ih hrest (c.arrive prog r) hobeys
      exact ⟨_, Steps.trans (.snoc .refl (.arrive (hmay r (by simp)))) h⟩
    | inr i =>
      simp only [obeys, Bool.and_eq_true] at hobeys
      obtain ⟨tr, h⟩ := ih hrest (c.advance exec i) hobeys.2
      cases hi : c.pool[i]? with
      | none =>
        have hc : c.advance exec i = c := by simp [advance, hi]
        rw [hc] at h
        exact ⟨tr, by simpa [play, hc] using h⟩
      | some q =>
        obtain ⟨r, p⟩ := q
        cases p with
        | stmt l n k =>
          have hcheck := hobeys.1
          rw [hi] at hcheck
          exact ⟨_, Steps.trans (.snoc .refl (.fire hi hcheck)) h⟩
        | ret a =>
          have hc : c.advance exec i = c := by simp [advance, hi]
          rw [hc] at h
          exact ⟨tr, by simpa [play, hc] using h⟩
        | throw e =>
          have hc : c.advance exec i = c := by simp [advance, hi]
          rw [hc] at h
          exact ⟨tr, by simpa [play, hc] using h⟩

theorem Config.obeys_true (c : Config ρ σ ε ℓ α) (sched : List (ρ ⊕ Nat)) :
    c.obeys exec prog (fun _ _ => true) sched = true := by
  induction sched generalizing c with
  | nil => rfl
  | cons a rest ih =>
    cases a with
    | inl r => exact ih _
    | inr i =>
      simp only [obeys, ih, Bool.and_true]
      split <;> rfl

theorem Step.mono {may may' : ρ → Prop} {cond cond' : σ → ℓ → Prop} {c c' : Config ρ σ ε ℓ α}
    {e : Event ρ σ ℓ} (hmay : ∀ r, may r → may' r) (hcond : ∀ s l, cond s l → cond' s l)
    (h : Step exec prog may cond c e c') : Step exec prog may' cond' c e c' := by
  cases h with
  | arrive hr => exact .arrive (hmay _ hr)
  | fire hi hc => exact .fire hi (hcond _ _ hc)

theorem Config.play_steps_free {may : ρ → Prop} (sched : List (ρ ⊕ Nat))
    (hmay : ∀ r, .inl r ∈ sched → may r) (c : Config ρ σ ε ℓ α) :
    ∃ tr, Steps (Step exec prog may (fun _ _ => True)) c tr (c.play exec prog sched) := by
  obtain ⟨tr, h⟩ := play_steps exec prog sched hmay c (c.obeys_true exec prog sched)
  exact ⟨tr, h.mono fun _ _ _ => Step.mono _ _ (fun _ => id) (fun _ _ _ => trivial)⟩

end Semantics

/-- A rely/guarantee contract. `rely` is what other requests may do to the store
between two statements, `guard` what a request has to establish when a statement
fires, and `keeps` that guarded statements preserve the invariant. -/
structure Contract (σ ε ℓ : Type) where
  exec : ℓ → σ → Except ε σ
  inv : σ → Prop
  cond : σ → ℓ → Prop
  guard : σ → ℓ → Prop
  rely : σ → σ → Prop
  rely_refl : ∀ s, rely s s
  rely_trans : ∀ s₁ s₂ s₃, rely s₁ s₂ → rely s₂ s₃ → rely s₁ s₃
  keeps : ∀ s l s', inv s → guard s l → exec l s = .ok s' → inv s'

namespace Contract

variable (C : Contract σ ε ℓ)

/-- From a store `s`, whatever the others do, every statement `p` fires is guarded,
and `p` ends with `post`. -/
def Safe (post : Except ε α → σ → Prop) : Prog σ ε ℓ α → σ → Prop
  | .ret a, s => ∀ s', C.rely s s' → C.inv s' → post (.ok a) s'
  | .throw e, s => ∀ s', C.rely s s' → C.inv s' → post (.error e) s'
  | .stmt l n c, s => ∀ s', C.rely s s' → C.inv s' → C.cond s' l →
      C.guard s' l ∧ (∀ s'', C.exec l s' = .ok s'' → Safe post (n s') s'') ∧
        ∀ e, C.exec l s' = .error e → Safe post (c e) s'

variable {C}

theorem Safe.mono {post : Except ε α → σ → Prop} {p : Prog σ ε ℓ α} {s s' : σ}
    (h : C.Safe post p s) (hr : C.rely s s') : C.Safe post p s' := by
  cases p with
  | ret a => exact fun s'' hs => h s'' (C.rely_trans _ _ _ hr hs)
  | throw e => exact fun s'' hs => h s'' (C.rely_trans _ _ _ hr hs)
  | stmt l n c => exact fun s'' hs => h s'' (C.rely_trans _ _ _ hr hs)

theorem Safe.done {post : Except ε α → σ → Prop} {p : Prog σ ε ℓ α} {s : σ} (h : C.Safe post p s)
    (hdone : p.isDone) (hinv : C.inv s) : ∃ r, post r s := by
  cases p with
  | ret a => exact ⟨.ok a, h s (C.rely_refl s) hinv⟩
  | throw e => exact ⟨.error e, h s (C.rely_refl s) hinv⟩
  | stmt l n c => cases hdone

theorem safe_send_bind {β : Type} {post : Except ε β → σ → Prop} {l : ℓ} {view : σ → α}
    {k : α → Prog σ ε ℓ β} {s : σ} :
    C.Safe post ((Prog.send l view).bind k) s ↔ ∀ s', C.rely s s' → C.inv s' → C.cond s' l →
      C.guard s' l ∧ (∀ s'', C.exec l s' = .ok s'' → C.Safe post (k (view s')) s'') ∧
        ∀ e, C.exec l s' = .error e → C.Safe post (.throw e) s' := Iff.rfl

theorem safe_send_tryCatch {post : Except ε α → σ → Prop} {l : ℓ} {view : σ → α}
    {h : ε → Prog σ ε ℓ α} {s : σ} :
    C.Safe post ((Prog.send l view).tryCatch h) s ↔ ∀ s', C.rely s s' → C.inv s' → C.cond s' l →
      C.guard s' l ∧ (∀ s'', C.exec l s' = .ok s'' → C.Safe post (.ret (view s')) s'') ∧
        ∀ e, C.exec l s' = .error e → C.Safe post (h e) s' := Iff.rfl

/-- Every request in the pool is safe from the current store. -/
def PoolSafe (C : Contract σ ε ℓ) (post : ρ → Except ε α → σ → Prop)
    (c : Config ρ σ ε ℓ α) : Prop :=
  C.inv c.store ∧ ∀ (j : Nat) (q : ρ × Prog σ ε ℓ α),
    c.pool[j]? = some q → C.Safe (post q.1) q.2 c.store

/-- The rule for interleavings: guarded statements are interference the others put
up with, and every request is safe when it arrives. -/
theorem PoolSafe.step {prog : ρ → Prog σ ε ℓ α} {may : ρ → Prop}
    {post : ρ → Except ε α → σ → Prop}
    (hrely : ∀ s l s', C.inv s → C.guard s l → C.exec l s = .ok s' → C.rely s s')
    (hprog : ∀ r s, may r → C.inv s → C.Safe (post r) (prog r) s)
    {c c' : Config ρ σ ε ℓ α} {e : Event ρ σ ℓ} (h : PoolSafe C post c)
    (hstep : Step C.exec prog may C.cond c e c') : PoolSafe C post c' := by
  obtain ⟨hinv, hpool⟩ := h
  cases hstep with
  | arrive hr =>
    refine ⟨hinv, fun j q hj => ?_⟩
    rcases Config.arrive_pool prog hj with hold | ⟨_, rfl⟩
    · exact hpool j q hold
    · exact hprog _ _ hr hinv
  | @fire i r l n k hi hcond =>
    obtain ⟨hg, hok, herr⟩ := hpool i _ hi c.store (C.rely_refl _) hinv hcond
    cases he : C.exec l c.store with
    | ok s =>
      have hstore : (c.advance C.exec i).store = s := by rw [Config.advance_ok _ hi he]
      have hr := hrely _ _ _ hinv hg he
      refine ⟨by rw [hstore]; exact C.keeps _ _ _ hinv hg he, fun j q hj => ?_⟩
      rw [hstore]
      rcases Config.advance_pool _ hi hj with ⟨_, hold⟩ | ⟨rfl, ⟨s', hs', rfl⟩ | ⟨e, hs', _⟩⟩
      · exact (hpool j q hold).mono hr
      · exact hok s he
      · rw [he] at hs'; cases hs'
    | error e =>
      have hstore : (c.advance C.exec i).store = c.store := by rw [Config.advance_error _ hi he]
      refine ⟨by rw [hstore]; exact hinv, fun j q hj => ?_⟩
      rw [hstore]
      rcases Config.advance_pool _ hi hj with ⟨_, hold⟩ | ⟨rfl, ⟨s', hs', _⟩ | ⟨e', hs', rfl⟩⟩
      · exact hpool j q hold
      · rw [he] at hs'; cases hs'
      · rw [he] at hs'; cases hs'; exact herr e he

theorem PoolSafe.steps {prog : ρ → Prog σ ε ℓ α} {may : ρ → Prop}
    {post : ρ → Except ε α → σ → Prop}
    (hrely : ∀ s l s', C.inv s → C.guard s l → C.exec l s = .ok s' → C.rely s s')
    (hprog : ∀ r s, may r → C.inv s → C.Safe (post r) (prog r) s)
    {c c' : Config ρ σ ε ℓ α} {tr : List (Event ρ σ ℓ)} (h : PoolSafe C post c)
    (hsteps : Steps (Step C.exec prog may C.cond) c tr c') : PoolSafe C post c' :=
  Steps.invariant (fun _ c => PoolSafe C post c) h
    (fun _ _ _ _ hc hs => PoolSafe.step hrely hprog hc hs) hsteps

end Contract

end Handler
