import Mathlib.Data.List.Basic

set_option autoImplicit false

namespace FixedWindow

/-- The hits of a window so far, and the instant at which it closes. -/
structure Counter where
  hits : Nat
  expires : Nat
  deriving DecidableEq, Repr

/-- A span that is as long as a window, wherever it begins. -/
def During (window start now : Nat) : Prop := start ≤ now ∧ now < start + window

instance (window start now : Nat) : Decidable (During window start now) :=
  inferInstanceAs (Decidable (_ ∧ _))

section Counting

variable (window limit : Nat)

def hit (now : Nat) : Option Counter → Counter
  | none => ⟨1, now + window⟩
  | some c => if now < c.expires then ⟨c.hits + 1, c.expires⟩ else ⟨1, now + window⟩

def replay (c₀ : Option Counter) : List Nat → Option Counter
  | [] => c₀
  | now :: earlier => some (hit window now (replay c₀ earlier))

def admitted (c₀ : Option Counter) : List Nat → List Nat
  | [] => []
  | now :: earlier =>
    if (hit window now (replay window c₀ earlier)).hits ≤ limit then
      now :: admitted c₀ earlier
    else admitted c₀ earlier

end Counting

variable {window limit : Nat} {c₀ : Option Counter}

theorem hit_open {c : Counter} {now : Nat} (h : now < c.expires) :
    hit window now (some c) = ⟨c.hits + 1, c.expires⟩ := by
  simp [hit, h]

theorem hit_expired {c : Option Counter} {now : Nat} (h : ∀ d, c = some d → d.expires ≤ now) :
    hit window now c = ⟨1, now + window⟩ := by
  cases c with
  | none => rfl
  | some d => simp [hit, Nat.not_lt.mpr (h d rfl)]

theorem admitted_subset (times : List Nat) : admitted window limit c₀ times ⊆ times := by
  induction times with
  | nil => simp [admitted]
  | cons now earlier ih =>
    simp only [admitted]
    split
    · exact List.cons_subset_cons now ih
    · exact List.subset_cons_of_subset now ih

section Bound

/-- What `n` hits let through since `start` say of the counter: those of the window that
closes after the span are at most `limit` more than those of the windows before. -/
def Within (window limit start n : Nat) : Option Counter → Prop
  | none => n = 0
  | some c =>
    if start + window ≤ c.expires then n ≤ limit + min c.hits limit else n ≤ min c.hits limit

theorem Within.le {start n : Nat} {c : Option Counter} (h : Within window limit start n c) :
    n ≤ 2 * limit := by
  cases c with
  | none => simp [show n = 0 from h]
  | some c =>
    simp only [Within] at h
    split at h <;> omega

theorem within_zero {start : Nat} (c : Option Counter) : Within window limit start 0 c := by
  cases c with
  | none => rfl
  | some c => simp [Within]

theorem Within.hit {start n now : Nat} {c : Option Counter} (h : Within window limit start n c)
    (hnow : During window start now) :
    Within window limit start
      (if (hit window now c).hits ≤ limit then n + 1 else n) (some (hit window now c)) := by
  obtain ⟨hstart, hend⟩ := hnow
  cases c with
  | none =>
    cases show n = 0 from h
    rw [hit_expired (by simp)]
    simp only [Within]
    split_ifs <;> omega
  | some c =>
    by_cases hopen : now < c.expires
    · rw [hit_open hopen]
      simp only [Within] at h ⊢
      split_ifs at h ⊢ <;> omega
    · rw [hit_expired (by intro d hd; cases hd; omega)]
      simp only [Within] at h ⊢
      split_ifs at h ⊢ <;> omega

theorem count_cons {start now : Nat} {earlier : List Nat} :
    (admitted window limit c₀ (now :: earlier)).countP (During window start ·) =
      (admitted window limit c₀ earlier).countP (During window start ·) +
        if (hit window now (replay window c₀ earlier)).hits ≤ limit ∧ During window start now then 1
        else 0 := by
  by_cases hpass : (hit window now (replay window c₀ earlier)).hits ≤ limit
  · simp [admitted, hpass, List.countP_cons]
  · simp [admitted, hpass]

/-- In no span as long as a window does a limit let through more than its double. -/
theorem admitted_during_le {times : List Nat} (hsorted : times.Pairwise (· ≥ ·)) (start : Nat) :
    (admitted window limit c₀ times).countP (During window start ·) ≤ 2 * limit := by
  suffices hall : (admitted window limit c₀ times).countP (During window start ·) ≤ 2 * limit ∧
      ((∀ now ∈ times, now < start + window) → Within window limit start
        ((admitted window limit c₀ times).countP (During window start ·))
        (replay window c₀ times)) from hall.1
  induction times with
  | nil => exact ⟨by simp [admitted], fun _ => within_zero _⟩
  | cons now earlier ih =>
    obtain ⟨hle, hsorted⟩ := List.pairwise_cons.mp hsorted
    obtain ⟨hbound, hwithin⟩ := ih hsorted
    by_cases hend : now < start + window
    · have hbefore := hwithin fun earlier hmem => Nat.lt_of_le_of_lt (hle earlier hmem) hend
      have hafter : Within window limit start
          ((admitted window limit c₀ (now :: earlier)).countP (During window start ·))
          (replay window c₀ (now :: earlier)) := by
        rw [count_cons]
        by_cases hstart : start ≤ now
        · have hhit := hbefore.hit ⟨hstart, hend⟩
          by_cases hpass : (hit window now (replay window c₀ earlier)).hits ≤ limit
          · rw [if_pos hpass] at hhit
            rw [if_pos ⟨hpass, hstart, hend⟩]
            exact hhit
          · rw [if_neg hpass] at hhit
            rw [if_neg fun h => hpass h.1]
            exact hhit
        · have hnone : (admitted window limit c₀ earlier).countP (During window start ·) = 0 := by
            rw [List.countP_eq_zero]
            intro t ht hduring
            have htle := hle t (admitted_subset earlier ht)
            have hlow := (of_decide_eq_true hduring).1
            omega
          rw [hnone, if_neg fun h => hstart h.2.1]
          exact within_zero _
      exact ⟨hafter.le, fun _ => hafter⟩
    · refine ⟨by rwa [count_cons, if_neg fun h => hend h.2.2], fun hall => ?_⟩
      exact absurd (hall now List.mem_cons_self) hend

end Bound

section Refused

/-- A counter counts the hits of its window, which none of the hits comes after. -/
structure Counts (window : Nat) (times : List Nat) (c : Counter) : Prop where
  opened : ∃ start ∈ times, c.expires = start + window ∧ c.hits = times.countP (start ≤ ·)
  newest : ∀ now ∈ times, now < c.expires

theorem replay_counts {times : List Nat} (hwindow : 0 < window)
    (hsorted : times.Pairwise (· ≥ ·)) (hnew : ∀ c, c₀ = some c → ∀ now ∈ times, c.expires ≤ now) :
    ∀ now earlier, times = now :: earlier →
      Counts window times (hit window now (replay window c₀ earlier)) := by
  induction times with
  | nil => intro now earlier heq; cases heq
  | cons now earlier ih =>
    intro now' earlier' heq
    cases heq
    obtain ⟨hle, hsorted⟩ := List.pairwise_cons.mp hsorted
    cases earlier with
    | nil =>
      rw [show replay window c₀ [] = c₀ from rfl,
        hit_expired fun d hd => hnew d hd now List.mem_cons_self]
      exact ⟨⟨now, by simp, rfl, by simp⟩, by simpa using hwindow⟩
    | cons last older =>
      have hbefore := ih hsorted (fun c hc t ht => hnew c hc t (.tail _ ht)) last older rfl
      rw [show replay window c₀ (last :: older) =
        some (hit window last (replay window c₀ older)) from rfl]
      generalize hit window last (replay window c₀ older) = c at hbefore ⊢
      obtain ⟨⟨start, hmem, hexpires, hhits⟩, hnewest⟩ := hbefore
      by_cases hopen : now < c.expires
      · rw [hit_open hopen]
        have hstart : start ≤ now := hle start hmem
        refine ⟨⟨start, .tail _ hmem, hexpires, ?_⟩, ?_⟩
        · rw [List.countP_cons, if_pos (by simpa using hstart), hhits]
        · exact List.forall_mem_cons.mpr ⟨hopen, hnewest⟩
      · rw [hit_expired fun d hd => by cases hd; omega]
        have hnone : (last :: older).countP (now ≤ ·) = 0 := by
          rw [List.countP_eq_zero]
          intro t ht
          have hlt := hnewest t ht
          simp
          omega
        refine ⟨⟨now, by simp, rfl, ?_⟩, ?_⟩
        · rw [List.countP_cons, if_pos (by simp), hnone]
        · intro t ht
          rcases List.mem_cons.mp ht with rfl | hold
          · simpa using hwindow
          · have hlt := hnewest t hold
            simp only
            omega

/-- A hit is refused only in a span that has more hits than the limit. -/
theorem refused_crowded {now : Nat} {earlier : List Nat} (hwindow : 0 < window)
    (hsorted : (now :: earlier).Pairwise (· ≥ ·))
    (hnew : ∀ c, c₀ = some c → ∀ t ∈ now :: earlier, c.expires ≤ t)
    (hrefused : limit < (hit window now (replay window c₀ earlier)).hits) :
    ∃ start, limit < (now :: earlier).countP (During window start ·) := by
  obtain ⟨⟨start, _, hexpires, hhits⟩, hnewest⟩ :=
    replay_counts hwindow hsorted hnew now earlier rfl
  refine ⟨start, ?_⟩
  have hsame : (now :: earlier).countP (During window start ·) =
      (now :: earlier).countP (start ≤ ·) := by
    refine List.countP_congr fun t ht => ?_
    have hlt := hnewest t ht
    rw [decide_eq_true_eq, decide_eq_true_eq]
    unfold During
    omega
  rw [hsame, ← hhits]
  exact hrefused

end Refused

/-- A store of counters, as far as it is documented: a command counts a hit of its key and
returns the hits of the window; the other keys keep their counters. -/
structure Store (κ : Type) where
  State : Type
  counter : State → κ → Option Counter
  increment : Nat → Nat → κ → State → Nat × State
  increment_hits : ∀ window now key s,
    (increment window now key s).1 = (hit window now (counter s key)).hits
  increment_same : ∀ window now key s,
    counter (increment window now key s).2 key = some (hit window now (counter s key))
  increment_other : ∀ window now key s other, other ≠ key →
    counter (increment window now key s).2 other = counter s other

def Store.ofCounters (κ : Type) [DecidableEq κ] : Store κ where
  State := κ → Option Counter
  counter s := s
  increment window now key s :=
    ((hit window now (s key)).hits, Function.update s key (some (hit window now (s key))))
  increment_hits _ _ _ _ := rfl
  increment_same _ _ _ _ := by simp
  increment_other _ _ _ _ _ hother := by simp [hother]

end FixedWindow
