import Mathlib.Data.List.Basic

/-! A register fed by stamped writes and unstamped closings, in any order. A write is
dropped when the register already holds a newer one; a closing is never dropped. -/

set_option autoImplicit false

namespace NewestWins

variable {δ τ : Type}

inductive Change (δ τ : Type) where
  | write (stamp : Nat) (data : δ)
  | close (instant : τ)

structure Cell (δ τ : Type) where
  stamp : Nat
  data : δ
  closed : Option τ := none

def step : Option (Cell δ τ) → Change δ τ → Option (Cell δ τ)
  | none, .write s d => some { stamp := s, data := d }
  | some c, .write s d => if c.stamp ≤ s then some { stamp := s, data := d } else some c
  | none, .close _ => none
  | some c, .close t => some { c with closed := some t }

def replay (cs : List (Change δ τ)) : Option (Cell δ τ) := cs.foldl step none

def lastClose : List (Change δ τ) → Option τ
  | [] => none
  | .write _ _ :: rest => lastClose rest
  | .close t :: rest => (lastClose rest).or (some t)

/-- The newest write, the later one among equals, with what came after it. -/
def newest : List (Change δ τ) → Option (Nat × δ × List (Change δ τ))
  | [] => none
  | .close _ :: rest => newest rest
  | .write s d :: rest =>
    match newest rest with
    | none => some (s, d, rest)
    | some (s', d', after) => if s' < s then some (s, d, rest) else some (s', d', after)

/-- From a full register, a newer write replaces it and the closings after that write
count; with no newer write all closings count. -/
theorem foldl_step_some (cs : List (Change δ τ)) (c : Cell δ τ) :
    cs.foldl step (some c) =
      match newest cs with
      | none => some { c with closed := (lastClose cs).or c.closed }
      | some (s, d, after) =>
        if c.stamp ≤ s then some { stamp := s, data := d, closed := lastClose after }
        else some { c with closed := (lastClose cs).or c.closed } := by
  induction cs generalizing c with
  | nil => simp [newest, lastClose]
  | cons x rest ih =>
    cases x with
    | close t =>
      simp only [List.foldl_cons, step, ih, newest, lastClose]
      cases newest rest with
      | none => cases lastClose rest <;> rfl
      | some n =>
        obtain ⟨s, d, after⟩ := n
        simp only []
        split
        · rfl
        · cases lastClose rest <;> rfl
    | write s d =>
      simp only [List.foldl_cons, step, newest, lastClose]
      by_cases hs : c.stamp ≤ s
      · rw [if_pos hs, ih]
        cases hn : newest rest with
        | none => simp [hs]
        | some n =>
          obtain ⟨s', d', after⟩ := n
          simp only []
          by_cases hlt : s' < s
          · rw [if_neg (by omega), if_pos hlt]
            simp [hs]
          · rw [if_pos (by omega), if_neg hlt]
            simp [show c.stamp ≤ s' by omega]
      · rw [if_neg hs, ih]
        cases hn : newest rest with
        | none => simp [hs]
        | some n =>
          obtain ⟨s', d', after⟩ := n
          simp only []
          by_cases hlt : s' < s
          · rw [if_neg (by omega), if_pos hlt]
            simp [hs]
          · rw [if_neg hlt]

/-- What a register holds in the end: the newest write, closed by the last closing
that came after it. -/
theorem replay_eq (cs : List (Change δ τ)) :
    replay cs = (newest cs).map (fun n =>
      { stamp := n.1, data := n.2.1, closed := lastClose n.2.2 }) := by
  induction cs with
  | nil => rfl
  | cons x rest ih =>
    cases x with
    | close t => simpa [replay, step, newest] using ih
    | write s d =>
      simp only [replay, List.foldl_cons, step, foldl_step_some, newest]
      cases newest rest with
      | none => simp
      | some n =>
        obtain ⟨s', d', after⟩ := n
        simp only []
        by_cases hlt : s' < s
        · rw [if_neg (by omega), if_pos hlt]
          simp
        · rw [if_pos (by omega), if_neg hlt]
          simp

theorem newest_none {cs : List (Change δ τ)} (h : newest cs = none) (s : Nat) (d : δ) :
    .write s d ∉ cs := by
  induction cs with
  | nil => simp
  | cons x rest ih =>
    cases x with
    | close t => simpa using ih h
    | write s' d' =>
      simp only [newest] at h
      cases hn : newest rest with
      | none => simp [hn] at h
      | some n =>
        simp only [hn] at h
        split at h <;> cases h

theorem newest_some {cs : List (Change δ τ)} {s : Nat} {d : δ} {after : List (Change δ τ)}
    (h : newest cs = some (s, d, after)) :
    .write s d ∈ cs ∧ ∀ s' d', .write s' d' ∈ cs → s' ≤ s := by
  induction cs generalizing s d after with
  | nil => cases h
  | cons x rest ih =>
    cases x with
    | close t =>
      obtain ⟨hmem, hmax⟩ := ih h
      exact ⟨by simp [hmem], fun s' d' h' => hmax s' d' (by simpa using h')⟩
    | write s₀ d₀ =>
      simp only [newest] at h
      cases hn : newest rest with
      | none =>
        rw [hn] at h
        cases h
        refine ⟨by simp, fun s' d' h' => ?_⟩
        rcases List.mem_cons.mp h' with heq | hrest
        · cases heq; exact Nat.le_refl _
        · exact absurd hrest (newest_none hn s' d')
      | some n =>
        obtain ⟨s₁, d₁, after₁⟩ := n
        obtain ⟨hmem, hmax⟩ := ih hn
        simp only [hn] at h
        split at h
        · rename_i hlt
          cases h
          refine ⟨by simp, fun s' d' h' => ?_⟩
          rcases List.mem_cons.mp h' with heq | hrest
          · cases heq; exact Nat.le_refl _
          · have := hmax s' d' hrest
            omega
        · rename_i hlt
          cases h
          refine ⟨by simp [hmem], fun s' d' h' => ?_⟩
          rcases List.mem_cons.mp h' with heq | hrest
          · cases heq; omega
          · exact hmax s' d' hrest

theorem foldl_step_older {cs : List (Change δ τ)} {before : Option (Cell δ τ)}
    (holder : ∀ c, before = some c → ∀ s d, .write s d ∈ cs → c.stamp ≤ s) :
    cs.foldl step before =
      match newest cs with
      | some (s, d, after) => some { stamp := s, data := d, closed := lastClose after }
      | none => before.map (fun c => { c with closed := (lastClose cs).or c.closed }) := by
  cases before with
  | none =>
    rw [show cs.foldl step none = replay cs from rfl, replay_eq]
    cases newest cs <;> rfl
  | some c =>
    rw [foldl_step_some]
    cases hn : newest cs with
    | none => rfl
    | some n => simp [holder c rfl n.1 n.2.1 (newest_some hn).1]

end NewestWins
