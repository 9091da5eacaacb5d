/-! Noninterference by unwinding. What an observer is answered in a run is what a
machine of its own answers when it is served only the requests the observer sees. -/

set_option autoImplicit false

namespace Unwinding

variable {σ τ ρ ω : Type}

/-- The requests of a list, served in order, each with its answer. -/
def answers (serve : σ → ρ → ω × σ) : List ρ → σ → List (ρ × ω)
  | [], _ => []
  | r :: rest, s => (r, (serve s r).1) :: answers serve rest (serve s r).2

/-- `alike rs s t`: `t` is what the observer can tell of `s`, and the requests `rs` may
come. A request it sees is answered alike and leaves the states alike; any other does
not change what it can tell. -/
structure Unwinds (serve : σ → ρ → ω × σ) (serve' : τ → ρ → ω × τ) (sees : ρ → Bool)
    (alike : List ρ → σ → τ → Prop) : Prop where
  seen : ∀ r rest s t, sees r = true → alike (r :: rest) s t →
    (serve s r).1 = (serve' t r).1 ∧ alike rest (serve s r).2 (serve' t r).2
  hidden : ∀ r rest s t, sees r = false → alike (r :: rest) s t → alike rest (serve s r).2 t

theorem Unwinds.purge {serve : σ → ρ → ω × σ} {serve' : τ → ρ → ω × τ} {sees : ρ → Bool}
    {alike : List ρ → σ → τ → Prop} (h : Unwinds serve serve' sees alike) {rs : List ρ} {s : σ}
    {t : τ} (hst : alike rs s t) :
    (answers serve rs s).filter (fun a => sees a.1) = answers serve' (rs.filter sees) t := by
  induction rs generalizing s t with
  | nil => rfl
  | cons r rest ih =>
    cases hr : sees r with
    | true =>
      obtain ⟨hans, hnext⟩ := h.seen r rest s t hr hst
      simp [answers, hr, hans, ih hnext]
    | false => simp [answers, hr, ih (h.hidden r rest s t hr hst)]

end Unwinding
