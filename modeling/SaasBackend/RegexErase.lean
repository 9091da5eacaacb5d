import Mathlib.Computability.Language

set_option autoImplicit false

namespace Regex

variable {α β : Type}

/-- `many p` is greedy, and `orElse` tries its left side first. -/
inductive Pattern (α : Type) where
  | empty
  | one (p : α → Bool)
  | many (p : α → Bool)
  | seq (r t : Pattern α)
  | orElse (r t : Pattern α)

def Pattern.seqs : List (Pattern α) → Pattern α
  | [] => .empty
  | r :: rs => .seq r (.seqs rs)

/-- The texts a pattern stands for, whatever order they are tried in. -/
def Pattern.lang : Pattern α → Language α
  | .empty => 1
  | .one p => {s | ∃ a, p a = true ∧ s = [a]}
  | .many p => {s | ∀ a ∈ s, p a = true}
  | .seq r t => r.lang * t.lang
  | .orElse r t => r.lang + t.lang

/-- As many as there are, then fewer until `k` can go on. -/
def manyThen (p : α → Bool) (k : List α → Option β) : List α → Option β
  | [] => k []
  | a :: s => if p a then (manyThen p k s).or (k (a :: s)) else k (a :: s)

/-- Match at the start, then go on with `k`; where `k` fails, back up. -/
def Pattern.run : Pattern α → (List α → Option β) → List α → Option β
  | .empty, k, s => k s
  | .one _, _, [] => none
  | .one p, k, a :: s => if p a then k s else none
  | .many p, k, s => manyThen p k s
  | .seq r t, k, s => r.run (t.run k) s
  | .orElse r t, k, s => (r.run k s).or (t.run k s)

theorem manyThen_sound {p : α → Bool} {k : List α → Option β} {s : List α} {b : β}
    (h : manyThen p k s = some b) :
    ∃ taken rest, s = taken ++ rest ∧ (∀ a ∈ taken, p a = true) ∧ k rest = some b := by
  induction s with
  | nil => exact ⟨[], [], rfl, by simp, h⟩
  | cons a s ih =>
    simp only [manyThen] at h
    split at h
    · rename_i ha
      simp only [Option.or_eq_some_iff] at h
      rcases h with h | ⟨_, h⟩
      · obtain ⟨taken, rest, hs, htaken, hk⟩ := ih h
        exact ⟨a :: taken, rest, by simp [hs], by simp [ha]; simpa using htaken, hk⟩
      · exact ⟨[], a :: s, rfl, by simp, h⟩
    · exact ⟨[], a :: s, rfl, by simp, h⟩

theorem manyThen_complete {p : α → Bool} {k : List α → Option β} {taken rest : List α}
    (htaken : ∀ a ∈ taken, p a = true) (hk : (k rest).isSome) :
    (manyThen p k (taken ++ rest)).isSome := by
  induction taken with
  | nil =>
    cases rest with
    | nil => exact hk
    | cons a rest => simp only [List.nil_append, manyThen]; split <;> simp [hk]
  | cons a taken ih =>
    simp only [List.mem_cons, forall_eq_or_imp] at htaken
    simp [manyThen, htaken.1, ih htaken.2]

theorem Pattern.run_sound {r : Pattern α} {k : List α → Option β} {s : List α} {b : β}
    (h : r.run k s = some b) :
    ∃ taken rest, s = taken ++ rest ∧ taken ∈ r.lang ∧ k rest = some b := by
  induction r generalizing k s with
  | empty => exact ⟨[], s, rfl, Language.nil_mem_one, h⟩
  | one p =>
    cases s with
    | nil => simp [Pattern.run] at h
    | cons a s =>
      simp only [Pattern.run] at h
      split at h
      · rename_i ha
        exact ⟨[a], s, rfl, ⟨a, ha, rfl⟩, h⟩
      · cases h
  | many p => exact manyThen_sound h
  | seq r t ihr iht =>
    obtain ⟨first, rest, hs, hfirst, ht⟩ := ihr h
    obtain ⟨second, rest', hrest, hsecond, hk⟩ := iht ht
    exact ⟨first ++ second, rest', by simp [hs, hrest], Language.append_mem_mul hfirst hsecond, hk⟩
  | orElse r t ihr iht =>
    simp only [Pattern.run, Option.or_eq_some_iff] at h
    rcases h with h | ⟨_, h⟩
    · obtain ⟨taken, rest, hs, htaken, hk⟩ := ihr h
      exact ⟨taken, rest, hs, .inl htaken, hk⟩
    · obtain ⟨taken, rest, hs, htaken, hk⟩ := iht h
      exact ⟨taken, rest, hs, .inr htaken, hk⟩

theorem Pattern.run_complete {r : Pattern α} {k : List α → Option β} {taken rest : List α}
    (htaken : taken ∈ r.lang) (hk : (k rest).isSome) : (r.run k (taken ++ rest)).isSome := by
  induction r generalizing k taken rest with
  | empty =>
    obtain rfl : taken = [] := htaken
    exact hk
  | one p =>
    obtain ⟨a, ha, rfl⟩ := htaken
    simpa [Pattern.run, ha] using hk
  | many p => exact manyThen_complete htaken hk
  | seq r t ihr iht =>
    obtain ⟨first, hfirst, second, hsecond, rfl⟩ := Language.mem_mul.mp htaken
    rw [List.append_assoc]
    exact ihr hfirst (iht hsecond hk)
  | orElse r t ihr iht =>
    simp only [Pattern.run, Option.isSome_or, Bool.or_eq_true]
    rcases htaken with h | h
    · exact .inl (ihr h hk)
    · exact .inr (iht h hk)

def Pattern.matchLength (r : Pattern α) (s : List α) : Option Nat :=
  (r.run some s).map fun rest => s.length - rest.length

/-- Every match from left to right is taken out; the count says how much of the current
match is still ahead. -/
def Pattern.eraseFrom (r : Pattern α) : Nat → List α → List α
  | _, [] => []
  | n + 1, _ :: s => r.eraseFrom n s
  | 0, a :: s =>
    match r.matchLength (a :: s) with
    | some (n + 1) => r.eraseFrom n s
    | _ => a :: r.eraseFrom 0 s

/-- `s.replace(r, '')` with the flag g. -/
def Pattern.erase (r : Pattern α) (s : List α) : List α := r.eraseFrom 0 s

theorem Pattern.matchLength_sound {r : Pattern α} {s : List α} {n : Nat}
    (h : r.matchLength s = some n) :
    ∃ taken rest, s = taken ++ rest ∧ taken ∈ r.lang ∧ taken.length = n := by
  obtain ⟨rest, hrun, hn⟩ := Option.map_eq_some_iff.mp h
  obtain ⟨taken, rest', hs, htaken, hrest⟩ := run_sound hrun
  cases hrest
  have hlength := congrArg List.length hs
  rw [List.length_append] at hlength
  exact ⟨taken, rest, hs, htaken, by omega⟩

theorem Pattern.matchLength_eq_none {r : Pattern α} {s : List α} :
    r.matchLength s = none ↔ ∀ t, t <+: s → t ∉ r.lang := by
  constructor
  · rintro h t ⟨rest, rfl⟩ ht
    have hsome : (r.run some (t ++ rest)).isSome := run_complete ht rfl
    simp [matchLength] at h
    simp [h] at hsome
  · intro h
    cases hmatch : r.matchLength s with
    | none => rfl
    | some n =>
      obtain ⟨taken, rest, hs, htaken, _⟩ := matchLength_sound hmatch
      exact absurd htaken (h taken ⟨rest, hs.symm⟩)

theorem Pattern.eraseFrom_sublist (r : Pattern α) (n : Nat) (s : List α) :
    (r.eraseFrom n s).Sublist s := by
  induction s generalizing n with
  | nil => simp [eraseFrom]
  | cons a s ih =>
    cases n with
    | succ n => exact (ih n).cons a
    | zero =>
      simp only [eraseFrom]
      split
      · exact (ih _).cons a
      · exact (ih 0).cons_cons a

theorem Pattern.erase_sublist (r : Pattern α) (s : List α) : (r.erase s).Sublist s :=
    r.eraseFrom_sublist 0 s

/-- A pattern without empty matches leaves alone exactly the texts it occurs nowhere in. -/
theorem Pattern.erase_eq_self_iff {r : Pattern α} (hr : [] ∉ r.lang) {s : List α} :
    r.erase s = s ↔ ∀ t, t <:+: s → t ∉ r.lang := by
  unfold erase
  induction s with
  | nil => simp [eraseFrom, hr]
  | cons a s ih =>
    simp only [List.infix_cons_iff, or_imp, forall_and, ← ih, ← matchLength_eq_none, eraseFrom]
    cases hmatch : r.matchLength (a :: s) with
    | none => simp
    | some n =>
      cases n with
      | zero =>
        obtain ⟨taken, _, _, htaken, hlength⟩ := matchLength_sound hmatch
        rw [List.length_eq_zero_iff] at hlength
        exact absurd (hlength ▸ htaken) hr
      | succ n =>
        have hshort := (r.eraseFrom_sublist n s).length_le
        simp only [reduceCtorEq, false_and, iff_false]
        intro h
        rw [h, List.length_cons] at hshort
        omega

theorem Pattern.nil_notMem_seqs_one {p : α → Bool} {rs : List (Pattern α)} :
    [] ∉ (Pattern.seqs (.one p :: rs)).lang := by
  intro h
  obtain ⟨first, ⟨a, _, rfl⟩, second, _, happend⟩ := Language.mem_mul.mp h
  cases happend

end Regex
