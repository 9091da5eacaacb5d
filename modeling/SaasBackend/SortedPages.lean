import Mathlib.Data.List.Basic

set_option autoImplicit false

namespace SortedPages

variable {α : Type} {le : α → α → Bool} {p : α → Bool} {rows l l₁ l₂ s : List α}
  {a b : α} {m n : Nat}

/-- `l` has the rows in an order that `le` allows. -/
structure Arranges (le : α → α → Bool) (l rows : List α) : Prop where
  perm : l.Perm rows
  sorted : l.Pairwise fun a b => le a b = true

/-- The first `count` pages of `n` rows, page `k` from the order `orders k`. -/
def pages (n : Nat) (orders : Nat → List α) (count : Nat) : List α :=
  (List.range count).flatMap fun k => ((orders k).drop (k * n)).take n

theorem pages_succ (n : Nat) (orders : Nat → List α) (count : Nat) :
    pages n orders (count + 1) = pages n orders count ++
      ((orders count).drop (count * n)).take n := by
  rw [pages, List.range_succ, List.flatMap_append, List.flatMap_singleton, pages]

theorem pages_const (n : Nat) (l : List α) (count : Nat) :
    pages n (fun _ => l) count = l.take (count * n) := by
  induction count with
  | zero => simp [pages]
  | succ count ih => rw [pages_succ, ih, Nat.succ_mul, List.take_add]

theorem pages_congr {n : Nat} {orders orders' : Nat → List α} {count : Nat}
    (h : ∀ k < count, orders k = orders' k) : pages n orders count = pages n orders' count := by
  induction count with
  | zero => rfl
  | succ count ih => rw [pages_succ, pages_succ, ih fun k hk => h k (by omega), h count (by omega)]

theorem pages_change (n : Nat) (l l' : List α) (k count : Nat) :
    pages n (fun j => if j < k then l else l') (k + count) = l.take (k * n) ++
      (l'.drop (k * n)).take (count * n) := by
  induction count with
  | zero =>
    have hfirst : pages n (fun j => if j < k then l else l') k = pages n (fun _ => l) k :=
      pages_congr fun j hj => if_pos hj
    rw [Nat.add_zero, hfirst, pages_const, Nat.zero_mul, List.take_zero, List.append_nil]
  | succ count ih =>
    rw [← Nat.add_assoc, pages_succ, ih, if_neg (by omega), Nat.succ_mul, List.take_add,
      List.drop_drop, ← Nat.add_mul, List.append_assoc]

/-- In a sorted list the elements of a property that the smaller ones share stand in front. -/
theorem filter_eq_take (hs : l.Pairwise fun a b => le a b = true)
    (hp : ∀ a b, le a b = true → p b = true → p a = true) :
    l.filter p = l.take (l.filter p).length := by
  refine List.prefix_iff_eq_take.mp ?_
  induction l with
  | nil => exact List.prefix_refl _
  | cons a l ih =>
    obtain ⟨hfirst, hrest⟩ := List.pairwise_cons.mp hs
    cases hpa : p a with
    | true =>
      rw [List.filter_cons_of_pos hpa]
      exact List.cons_prefix_cons.mpr ⟨rfl, ih hrest⟩
    | false =>
      have hnone : (a :: l).filter p = [] := by
        refine List.filter_eq_nil_iff.mpr
          (List.forall_mem_cons.mpr ⟨by simp [hpa], fun b hb hpb => ?_⟩)
        rw [hp a b (hfirst b hb) hpb] at hpa
        cases hpa
      rw [hnone]
      exact List.nil_prefix

/-- Where no two equal elements meet, every order has the same elements in front. -/
theorem take_perm_take (trans : ∀ a b c : α, le a b → le b c → le a c)
    (total : ∀ a b : α, le a b || le b a) (h₁ : Arranges le l₁ rows) (h₂ : Arranges le l₂ rows)
    (hm : ∀ b, l₁[m]? = some b → ∀ a ∈ l₁.take m, le b a = false) :
    (l₁.take m).Perm (l₂.take m) := by
  cases hb : l₁[m]? with
  | none =>
    have hlength : l₁.length ≤ m := List.getElem?_eq_none_iff.mp hb
    have hlength₂ : l₂.length ≤ m := by rw [(h₂.perm.trans h₁.perm.symm).length_eq]; exact hlength
    rw [List.take_of_length_le hlength, List.take_of_length_le hlength₂]
    exact h₁.perm.trans h₂.perm.symm
  | some b =>
    -- the elements below `b`
    have hbelow : ∀ x y, le x y = true → (!le b y) = true → (!le b x) = true := by
      intro x y hxy hy
      simp only [Bool.not_eq_true'] at hy ⊢
      by_contra hx
      rw [trans b x y (by simpa using hx) hxy] at hy
      cases hy
    have hsplit : l₁ = l₁.take m ++ b :: l₁.drop (m + 1) := by
      obtain ⟨hlt, rfl⟩ := List.getElem?_eq_some_iff.mp hb
      rw [← List.drop_eq_getElem_cons hlt, List.take_append_drop]
    have hbehind : ∀ x ∈ b :: l₁.drop (m + 1), le b x = true := by
      have hsorted := h₁.sorted
      rw [hsplit] at hsorted
      refine List.forall_mem_cons.mpr ⟨by simpa using total b b, ?_⟩
      exact (List.pairwise_cons.mp (List.pairwise_append.mp hsorted).2.1).1
    have hfront : l₁.filter (fun x => !le b x) = l₁.take m := by
      have hnone : (b :: l₁.drop (m + 1)).filter (fun x => !le b x) = [] :=
        List.filter_eq_nil_iff.mpr fun x hx => by simp [hbehind x hx]
      have hall : (l₁.take m).filter (fun x => !le b x) = l₁.take m :=
        List.filter_eq_self.mpr fun x hx => by simp [hm b hb x hx]
      calc l₁.filter (fun x => !le b x)
          = (l₁.take m ++ b :: l₁.drop (m + 1)).filter (fun x => !le b x) := by rw [← hsplit]
        _ = l₁.take m := by rw [List.filter_append, hall, hnone, List.append_nil]
    have hperm : (l₁.filter fun x => !le b x).Perm (l₂.filter fun x => !le b x) :=
      (h₁.perm.trans h₂.perm.symm).filter _
    have hlength : (l₂.filter fun x => !le b x).length = m := by
      have hlt := (List.getElem?_eq_some_iff.mp hb).1
      rw [← hperm.length_eq, hfront, List.length_take_of_le (Nat.le_of_lt hlt)]
    have hfront₂ := filter_eq_take h₂.sorted hbelow
    rw [hlength] at hfront₂
    rw [← hfront, ← hfront₂]
    exact hperm

/-- The elements before place `m` are smaller than the one at it. -/
def Clear (le : α → α → Bool) (s : List α) (m : Nat) : Prop :=
  ∀ a b, s[m]? = some a → s[m + 1]? = some b → le b a = false

theorem Clear.below (trans : ∀ a b c : α, le a b → le b c → le a c)
    (hs : s.Pairwise fun a b => le a b = true) (hclear : Clear le s m) (hb : s[m + 1]? = some b) :
    ∀ x ∈ s.take (m + 1), le b x = false := by
  intro x hx
  have hm : m < s.length := by
    have hlt := (List.getElem?_eq_some_iff.mp hb).1
    omega
  have hless := hclear s[m] b (List.getElem?_eq_getElem hm) hb
  rw [List.take_add_one, List.getElem?_eq_getElem hm, Option.toList_some, List.mem_append,
    List.mem_singleton] at hx
  rcases hx with hx | rfl
  · by_contra hle
    have hlast : le x s[m] = true := by
      have hsplit := List.take_append_drop m s
      rw [← hsplit] at hs
      exact (List.pairwise_append.mp hs).2.2 x hx s[m]
        (by rw [List.drop_eq_getElem_cons hm]; exact .head _)
    rw [trans b x s[m] (by simpa using hle) hlast] at hless
    cases hless
  · exact hless

/-- Without equal elements across the ends of pages the pages have the rows, whatever the orders. -/
theorem pages_perm_of_clear (trans : ∀ a b c : α, le a b → le b c → le a c)
    (total : ∀ a b : α, le a b || le b a) (hs : Arranges le s rows)
    (hclear : ∀ k, Clear le s ((k + 1) * n - 1)) {orders : Nat → List α}
    (horders : ∀ k, Arranges le (orders k) rows) (count : Nat) :
    (pages n orders count).Perm (s.take (count * n)) := by
  have hfront : ∀ k j, (s.take (k * n)).Perm ((orders j).take (k * n)) := by
    intro k j
    refine take_perm_take trans total hs (horders j) fun b hb => ?_
    cases hkn : k * n with
    | zero => simp
    | succ m =>
      obtain ⟨k, rfl⟩ : ∃ i, k = i + 1 := Nat.exists_eq_succ_of_ne_zero (by rintro rfl; simp at hkn)
      have hplace := hclear k
      rw [hkn] at hplace hb
      exact hplace.below trans hs.sorted hb
  induction count with
  | zero => simp [pages]
  | succ count ih =>
    rw [pages_succ]
    refine (ih.append_right _).trans (((hfront count count).append_right _).trans ?_)
    rw [← List.take_add, ← Nat.succ_mul]
    exact (hfront (count + 1) count).symm

theorem Arranges.swap {front back : List α} (h : Arranges le (front ++ a :: b :: back) rows)
    (hle : le b a = true) :
    Arranges le (front ++ b :: a :: back) rows := by
  constructor
  · exact (List.Perm.append_left front (List.Perm.swap a b back)).trans h.perm
  · obtain ⟨hfront, hrest, hacross⟩ := List.pairwise_append.mp h.sorted
    obtain ⟨ha, hrest⟩ := List.pairwise_cons.mp hrest
    obtain ⟨hb, hback⟩ := List.pairwise_cons.mp hrest
    refine List.pairwise_append.mpr ⟨hfront, ?_, fun x hx y hy => hacross x hx y ?_⟩
    · exact List.pairwise_cons.mpr ⟨List.forall_mem_cons.mpr ⟨hle, hb⟩,
        List.pairwise_cons.mpr ⟨fun y hy => ha y (.tail _ hy), hback⟩⟩
    · exact ((List.Perm.swap a b back).mem_iff).mp hy

/-- Equal elements across the end of a page can be shown twice or not at all. -/
theorem exists_orders_of_not_clear (hs : Arranges le s rows) (hdistinct : rows.Nodup)
    {k count : Nat} (hn : 0 < n) (hcount : rows.length ≤ count * n)
    (hnot : ¬Clear le s ((k + 1) * n - 1)) :
    ∃ orders : Nat → List α, (∀ k, Arranges le (orders k) rows) ∧
      ¬(pages n orders count).Perm rows := by
  obtain ⟨m, hm⟩ : ∃ m, (k + 1) * n = m + 1 :=
    Nat.exists_eq_succ_of_ne_zero (Nat.mul_ne_zero (Nat.succ_ne_zero k) (Nat.pos_iff_ne_zero.mp hn))
  unfold Clear at hnot
  push Not at hnot
  obtain ⟨a, b, ha, hb, hle⟩ := hnot
  rw [hm, Nat.add_sub_cancel] at ha hb
  have hle : le b a = true := by simpa using hle
  have hsplit : s = s.take m ++ a :: b :: s.drop (m + 2) := by
    obtain ⟨hmlt, rfl⟩ := List.getElem?_eq_some_iff.mp ha
    obtain ⟨hblt, rfl⟩ := List.getElem?_eq_some_iff.mp hb
    rw [← List.drop_eq_getElem_cons hblt, ← List.drop_eq_getElem_cons hmlt, List.take_append_drop]
  have hlength : (s.take m).length = m := by
    have hlt := (List.getElem?_eq_some_iff.mp ha).1
    exact List.length_take_of_le (Nat.le_of_lt hlt)
  generalize s.take m = front at hsplit hlength
  generalize s.drop (m + 2) = back at hsplit
  subst hsplit
  -- page `k` ends with `a`, and the next one starts with it
  obtain ⟨rest, rfl⟩ : ∃ rest, count = k + 1 + rest := by
    have hlt : (k + 1) * n < count * n := by
      have hlt := (List.getElem?_eq_some_iff.mp hb).1
      rw [hs.perm.length_eq] at hlt
      omega
    exact Nat.exists_eq_add_of_le (Nat.le_of_lt (Nat.lt_of_mul_lt_mul_right hlt))
  refine ⟨fun j => if j < k + 1 then front ++ a :: b :: back else front ++ b :: a :: back,
    fun j => ?_, fun hperm => ?_⟩
  · dsimp only
    split
    · exact hs
    · exact hs.swap hle
  · have htake : (front ++ a :: b :: back).take (m + 1) = front ++ [a] := by
      rw [← hlength, List.take_length_add_append, List.take_succ_cons, List.take_zero]
    have hdrop : (front ++ b :: a :: back).drop (m + 1) = a :: back := by
      rw [← hlength, List.drop_length_add_append, List.drop_succ_cons, List.drop_zero]
    rw [pages_change, hm, htake, hdrop] at hperm
    have htaken : a ∈ (a :: back).take (rest * n) := by
      have hmore : rest * n ≠ 0 := by
        rw [← hs.perm.length_eq, List.length_append, List.length_cons, List.length_cons,
          Nat.add_mul, hm] at hcount
        omega
      obtain ⟨t, ht⟩ := Nat.exists_eq_succ_of_ne_zero hmore
      rw [ht, List.take_succ_cons]
      exact .head _
    have hnodup := hperm.nodup_iff.mpr hdistinct
    exact (List.nodup_append.mp hnodup).2.2 a (by simp) a htaken rfl

theorem pages_perm_iff (trans : ∀ a b c : α, le a b → le b c → le a c)
    (total : ∀ a b : α, le a b || le b a) (hs : Arranges le s rows) (hdistinct : rows.Nodup)
    (hn : 0 < n) {count : Nat} (hcount : rows.length ≤ count * n) :
    (∀ orders : Nat → List α, (∀ k, Arranges le (orders k) rows) →
      (pages n orders count).Perm rows) ↔
      ∀ k, Clear le s ((k + 1) * n - 1) := by
  constructor
  · intro hpages k
    by_contra hnot
    obtain ⟨orders, horders, hperm⟩ := exists_orders_of_not_clear hs hdistinct hn hcount hnot
    exact hperm (hpages orders horders)
  · intro hclear orders horders
    have hperm := pages_perm_of_clear trans total hs hclear horders count
    rw [List.take_of_length_le (by rw [hs.perm.length_eq]; exact hcount)] at hperm
    exact hperm.trans hs.perm

end SortedPages
