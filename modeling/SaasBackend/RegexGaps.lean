import SaasBackend.RegexErase
import Mathlib.Logic.Relation

/-! Several patterns taken out of one text, one after the other. What stands around a match is
joined and not looked at again, so a match is left only where something stood inside of its
opening. -/

set_option autoImplicit false

namespace Regex
open Relation

variable {α : Type}

section Gaps

/-- A match is taken out of a piece of a text, which `b` and what is left of `rest` follow. -/
def Strips (rs : List (Pattern α)) (b : α) (rest s s' : List α) : Prop :=
  ∃ r ∈ rs, ∃ x t y z, s = x ++ (t ++ y) ∧ s' = x ++ y ∧ t ≠ [] ∧ z.Sublist rest ∧
    r.matchLength (t ++ (y ++ b :: z)) = some t.length

variable {rs rs' : List (Pattern α)} {b : α} {rest rest' m n : List α}

theorem Strips.cons (h : Strips rs b rest m n) (c : α) : Strips rs b rest (c :: m) (c :: n) := by
  obtain ⟨r, hr, x, t, y, z, rfl, rfl, hmatch⟩ := h
  exact ⟨r, hr, c :: x, t, y, z, rfl, rfl, hmatch⟩

theorem Strips.many_cons (h : ReflTransGen (Strips rs b rest) m n) (c : α) :
    ReflTransGen (Strips rs b rest) (c :: m) (c :: n) :=
  ReflTransGen.lift (c :: ·) (fun _ _ hstep => Strips.cons hstep c) m n h

theorem Strips.many_mono (h : ReflTransGen (Strips rs b rest) m n) (hrs : rs ⊆ rs')
    (hrest : rest.Sublist rest') : ReflTransGen (Strips rs' b rest') m n := by
  refine ReflTransGen.lift id (fun s s' hstep => ?_) m n h
  obtain ⟨r, hr, x, t, y, z, hs, hs', ht, hz, hmatch⟩ := hstep
  exact ⟨r, hrs hr, x, t, y, z, hs, hs', ht, hz.trans hrest, hmatch⟩

theorem Strips.many_eq (hclean : ∀ r ∈ rs, ∀ t, t <:+: m → t ∉ r.lang)
    (h : ReflTransGen (Strips rs b rest) m n) : m = n := by
  rcases ReflTransGen.cases_head h with heq | ⟨k, ⟨r, hr, x, t, y, z, hm, _, _, _, hmatch⟩, _⟩
  · exact heq
  · obtain ⟨taken, left, htext, htaken, hlength⟩ := Pattern.matchLength_sound hmatch
    obtain ⟨rfl, _⟩ := List.append_inj htext hlength.symm
    exact absurd htaken (hclean r hr t ⟨x, y, by simp [hm]⟩)

end Gaps

section Passes

variable {r : Pattern α} {rs : List (Pattern α)} {b : α} {w n y' : List α}

theorem Pattern.matchLength_pos {t : List α} (hr : [] ∉ r.lang) (ht : t ∈ r.lang)
    (rest : List α) : ∃ k, r.matchLength (t ++ rest) = some (k + 1) := by
  cases hmatch : r.matchLength (t ++ rest) with
  | none => exact absurd ht (matchLength_eq_none.mp hmatch t (List.prefix_append t rest))
  | some k =>
    cases k with
    | zero =>
      obtain ⟨taken, _, _, htaken, hlength⟩ := matchLength_sound hmatch
      exact absurd (List.length_eq_zero_iff.mp hlength ▸ htaken) hr
    | succ k => exact ⟨k, rfl⟩

theorem Pattern.eraseFrom_split {i : Nat} (h : r.eraseFrom i w = n ++ b :: y') :
    ∃ m y, w = m ++ b :: y ∧ i ≤ m.length ∧ ReflTransGen (Strips [r] b y) (m.drop i) n ∧
      r.erase y = y' ∧ ∀ k, r.matchLength (b :: y) ≠ some (k + 1) := by
  induction w generalizing i n with
  | nil => cases n <;> cases h
  | cons c w ih =>
    cases i with
    | succ i =>
      obtain ⟨m, y, rfl, hi, hmany, hrest⟩ := ih h
      exact ⟨c :: m, y, rfl, Nat.succ_le_succ hi, hmany, hrest⟩
    | zero =>
      rw [eraseFrom] at h
      split at h
      · -- a match begins here and ends before the character
        rename_i k hmatch
        obtain ⟨m, y, rfl, hk, hmany, hrest⟩ := ih h
        refine ⟨c :: m, y, rfl, Nat.zero_le _, .head ?_ hmany, hrest⟩
        refine ⟨r, List.mem_cons_self, [], c :: m.take k, m.drop k, y, ?_, rfl, ?_, .refl y, ?_⟩
        · simp
        · simp
        · rw [← List.append_assoc, List.cons_append, List.take_append_drop, List.length_cons,
            List.length_take_of_le hk]
          exact hmatch
      · rename_i hnone
        cases n with
        | nil =>
          obtain ⟨rfl, hrest⟩ := List.cons.inj h
          exact ⟨[], w, rfl, Nat.le_refl _, .refl, hrest, hnone⟩
        | cons d n =>
          obtain ⟨rfl, hlater⟩ := List.cons.inj h
          obtain ⟨m, y, rfl, _, hmany, hrest⟩ := ih hlater
          exact ⟨c :: m, y, rfl, Nat.zero_le _, Strips.many_cons hmany c, hrest⟩

/-- What stood before a character that is kept was taken out match by match, and no match
begins at the character. -/
theorem Pattern.erase_split (h : r.erase w = n ++ b :: y') :
    ∃ m y, w = m ++ b :: y ∧ ReflTransGen (Strips [r] b y) m n ∧ r.erase y = y' ∧
      ∀ k, r.matchLength (b :: y) ≠ some (k + 1) := by
  obtain ⟨m, y, hw, _, hmany, hrest⟩ := Pattern.eraseFrom_split h
  exact ⟨m, y, hw, hmany, hrest⟩

/-- `s.replace(r₁, '').replace(r₂, '')` and so on. -/
def eraseAll (rs : List (Pattern α)) (s : List α) : List α := rs.foldl (fun s r => r.erase s) s

theorem eraseAll_sublist (rs : List (Pattern α)) (s : List α) : (eraseAll rs s).Sublist s := by
  induction rs generalizing s with
  | nil => exact .refl s
  | cons r rs ih => exact (ih (r.erase s)).trans (r.erase_sublist s)

theorem eraseAll_split (h : eraseAll rs w = n ++ b :: y') :
    ∃ m y, w = m ++ b :: y ∧ ReflTransGen (Strips rs b y) m n ∧ eraseAll rs y = y' := by
  induction rs generalizing w with
  | nil => exact ⟨n, y', h, .refl, rfl⟩
  | cons r rs ih =>
    obtain ⟨k, y₁, hk, hlater, rfl⟩ := ih h
    obtain ⟨m, y, rfl, hfirst, rfl, _⟩ := Pattern.erase_split hk
    refine ⟨m, y, rfl, .trans (b := k) ?_ ?_, rfl⟩
    · exact Strips.many_mono hfirst (by simp) (.refl y)
    · exact Strips.many_mono hlater (List.subset_cons_self r rs) (r.erase_sublist y)

end Passes

section Openings

def Pattern.least : Pattern α → Nat
  | .empty => 0
  | .one _ => 1
  | .many _ => 0
  | .seq r t => r.least + t.least
  | .orElse r t => min r.least t.least

theorem Pattern.least_le {r : Pattern α} {t : List α} (ht : t ∈ r.lang) : r.least ≤ t.length := by
  induction r generalizing t with
  | empty => exact Nat.zero_le _
  | one p =>
    obtain ⟨c, _, rfl⟩ := ht
    exact Nat.le_refl 1
  | many p => exact Nat.zero_le _
  | seq r q ihr ihq =>
    obtain ⟨u, hu, v, hv, rfl⟩ := Language.mem_mul.mp ht
    rw [List.length_append]
    exact Nat.add_le_add (ihr hu) (ihq hv)
  | orElse r q ihr ihq =>
    rcases ht with hr | hq
    · exact (Nat.min_le_left _ _).trans (ihr hr)
    · exact (Nat.min_le_right _ _).trans (ihq hq)

theorem Pattern.lang_seqs_append (rs rs' : List (Pattern α)) :
    (Pattern.seqs (rs ++ rs')).lang = (Pattern.seqs rs).lang * (Pattern.seqs rs').lang := by
  induction rs with
  | nil => exact (one_mul _).symm
  | cons r rs ih =>
    rw [List.cons_append, seqs, lang, ih, seqs, lang]
    exact (mul_assoc _ _ _).symm

/-- A pattern parted where its matches have begun: of a tail it is enough that its characters
come in their order somewhere behind. -/
structure Opening (α : Type) where
  pattern : Pattern α
  head : Pattern α
  tail : Pattern α
  splits : pattern.lang = head.lang * tail.lang
  long : 2 ≤ head.least
  lasting : ∀ t ∈ tail.lang, ∀ y, t.Sublist y → ∃ t' ∈ tail.lang, t' <+: y

/-- Between two characters of the text matches stand: with those of `before` taken out no match
of the pattern has begun at the first of the two, and with its own and those of `after` taken out
as well one has, at the second, with its tail behind. -/
def Opening.Interrupted (o : Opening α) (before after : List (Pattern α)) (s : List α) : Prop :=
  ∃ x a m k n b y, s = x ++ a :: (m ++ b :: y) ∧
    ReflTransGen (Strips before b y) m k ∧ (∀ h ∈ o.head.lang, ¬ h <+: a :: (k ++ [b])) ∧
    ReflTransGen (Strips (o.pattern :: after) b y) k n ∧ a :: (n ++ [b]) ∈ o.head.lang ∧
    ∃ t ∈ o.tail.lang, t <+: y

/-- Some opening is interrupted, the patterns being taken out in the order of the list. -/
def Interrupted (os : List (Opening α)) (s : List α) : Prop :=
  ∃ before o after, os = before ++ o :: after ∧
    o.Interrupted (before.map (·.pattern)) (after.map (·.pattern)) s

variable {o : Opening α} {os : List (Opening α)} {s t : List α}

theorem Opening.exists_ends {h : List α} (hh : h ∈ o.head.lang) : ∃ a n b, h = a :: (n ++ [b]) := by
  have hlong := o.long.trans (Pattern.least_le hh)
  cases h with
  | nil => simp at hlong
  | cons a h =>
    rcases List.eq_nil_or_concat h with rfl | ⟨n, b, rfl⟩
    · simp at hlong
    · exact ⟨a, n, b, by simp⟩

theorem Opening.matches_of_opens {h t rest : List α} (hh : h ∈ o.head.lang)
    (ht : t ∈ o.tail.lang) (hrest : t.Sublist rest) :
    ∃ k, o.pattern.matchLength (h ++ rest) = some (k + 1) := by
  obtain ⟨t', ht', left, rfl⟩ := o.lasting t ht rest hrest
  rw [← List.append_assoc]
  refine Pattern.matchLength_pos ?_ ?_ left
  · rw [o.splits]
    rintro ⟨h', hh', t'', _, hnil⟩
    have hlong := o.long.trans (Pattern.least_le hh')
    simp_all
  · rw [o.splits]
    exact Language.append_mem_mul hh ht'

theorem Opening.clean_of_not_interrupted {before after : List (Pattern α)}
    (ho : ¬ o.Interrupted before after s)
    (ht : t <:+: eraseAll (before ++ o.pattern :: after) s) : t ∉ o.pattern.lang := by
  intro hmatch
  rw [o.splits] at hmatch
  obtain ⟨h, hh, rear, hrear', rfl⟩ := Language.mem_mul.mp hmatch
  obtain ⟨a, n, b, rfl⟩ := Opening.exists_ends hh
  obtain ⟨x₃, y₃, houtput⟩ := ht
  have houtput : eraseAll after (o.pattern.erase (eraseAll before s)) =
      x₃ ++ a :: (n ++ b :: (rear ++ y₃)) := by
    rw [eraseAll, List.foldl_append, List.foldl_cons] at houtput
    simpa [eraseAll] using houtput.symm
  -- the two characters at the ends, back through the later passes, that of the pattern and
  -- the earlier ones
  obtain ⟨x₂, w₂, hs₂, _, hw₂⟩ := eraseAll_split houtput
  obtain ⟨k₂, y₂, rfl, hafter, hy₂⟩ := eraseAll_split hw₂
  obtain ⟨x₁, w₁, hs₁, _, hw₁, hnone⟩ := Pattern.erase_split hs₂
  obtain ⟨k, y₁, rfl, hown, hy₁, _⟩ := Pattern.erase_split hw₁
  obtain ⟨x, w, rfl, _, hw⟩ := eraseAll_split hs₁
  obtain ⟨m, y, rfl, hbefore, hy⟩ := eraseAll_split hw
  have hy₁y : y₁.Sublist y := hy ▸ eraseAll_sublist before y
  have hrear : rear.Sublist y₁ := by
    have hrear₃ : rear.Sublist (rear ++ y₃) := List.sublist_append_left rear y₃
    have hrear₂ := hrear₃.trans (hy₂ ▸ eraseAll_sublist after y₂)
    exact hrear₂.trans (hy₁ ▸ o.pattern.erase_sublist y₁)
  refine ho ⟨x, a, m, k, n, b, y, rfl, hbefore, fun h' hh' hle => ?_, ?_, hh, ?_⟩
  · obtain ⟨left, hleft⟩ := hle
    have hstands : a :: (k ++ b :: y₁) = h' ++ (left ++ y₁) := by
      rw [← List.append_assoc, hleft]
      simp
    obtain ⟨i, hi⟩ := o.matches_of_opens hh' hrear'
      (hrear.trans (List.sublist_append_right left y₁))
    exact hnone i (hstands ▸ hi)
  · refine .trans (b := k₂) ?_ ?_
    · exact Strips.many_mono hown (by simp) hy₁y
    · exact Strips.many_mono hafter (List.subset_cons_self _ _)
        ((hy₁ ▸ o.pattern.erase_sublist y₁ : y₂.Sublist y₁).trans hy₁y)
  · exact o.lasting rear hrear' y (hrear.trans hy₁y)

theorem eraseAll_clean (hs : ¬ Interrupted os s) (ho : o ∈ os)
    (ht : t <:+: eraseAll (os.map (·.pattern)) s) : t ∉ o.pattern.lang := by
  obtain ⟨before, after, rfl⟩ := List.append_of_mem ho
  rw [List.map_append, List.map_cons] at ht
  exact Opening.clean_of_not_interrupted (fun h => hs ⟨before, o, after, rfl, h⟩) ht

theorem not_interrupted (hinner : ∀ o ∈ os, ∀ t, t <:+: s.tail.dropLast → t ∉ o.pattern.lang) :
    ¬ Interrupted os s := by
  rintro ⟨before, o, after, rfl, x, a, m, k, n, b, y, rfl, hbefore, hclosed, hafter, hopen, _⟩
  have hm : m <:+: (x ++ a :: (m ++ b :: y)).tail.dropLast := by
    have hend : ∀ z : List α, (z ++ b :: y).dropLast = z ++ (b :: y).dropLast :=
      fun z => List.dropLast_append_of_ne_nil (List.cons_ne_nil b y)
    cases x with
    | nil =>
      rw [List.nil_append, List.tail_cons, hend]
      exact ⟨[], _, rfl⟩
    | cons c x =>
      rw [List.cons_append, List.tail_cons, ← List.cons_append, ← List.append_assoc, hend]
      exact ⟨x ++ [a], (b :: y).dropLast, by simp⟩
  have hclean : ∀ r ∈ (before ++ o :: after).map (·.pattern), ∀ t, t <:+: m → t ∉ r.lang := by
    intro r hr t ht
    obtain ⟨o', ho', rfl⟩ := List.mem_map.mp hr
    exact hinner o' ho' t (ht.trans hm)
  obtain rfl : m = k := Strips.many_eq (fun r hr => hclean r (by simp_all)) hbefore
  obtain rfl : m = n := Strips.many_eq (fun r hr => hclean r (by simp_all)) hafter
  exact hclosed _ hopen List.prefix_rfl

end Openings

end Regex
