import Mathlib.Data.List.Infix
import Mathlib.Data.List.Basic

set_option autoImplicit false

namespace TextReplace

variable {α β : Type}

/-- `m` says how much of a text matches at its start, and what is put there. -/
def replaceFrom (m : List α → Option (Nat × List α)) : Nat → List α → List α
  | _, [] => []
  | skip + 1, _ :: s => replaceFrom m skip s
  | 0, c :: s =>
    match m (c :: s) with
    | none => c :: replaceFrom m 0 s
    | some (n, out) => out ++ replaceFrom m (n - 1) s

theorem replaceFrom_skip (m : List α → Option (Nat × List α)) (skip : Nat) (s : List α) :
    replaceFrom m skip s = replaceFrom m 0 (s.drop skip) := by
  induction s generalizing skip with
  | nil => cases skip <;> simp [replaceFrom]
  | cons c s ih =>
    cases skip with
    | zero => rfl
    | succ skip => rw [replaceFrom, ih, List.drop_succ_cons]

section Words

variable [DecidableEq α] {word out s : List α}

/-- `s.replace(/word/g, out)` -/
def replaceAll (word out s : List α) : List α :=
  replaceFrom (fun t => if word <+: t then some (word.length, out) else none) 0 s

theorem replaceAll_found (hword : word ≠ []) :
    replaceAll word out (word ++ s) = out ++ replaceAll word out s := by
  cases word with
  | nil => exact absurd rfl hword
  | cons first rest =>
    rw [replaceAll, List.cons_append, replaceFrom, ← List.cons_append,
      if_pos (List.prefix_append _ _)]
    simp only [List.length_cons, Nat.add_sub_cancel]
    rw [replaceFrom_skip, List.drop_left]
    rfl

theorem replaceAll_next {c : α} (h : ¬ word <+: c :: s) :
    replaceAll word out (c :: s) = c :: replaceAll word out s := by
  rw [replaceAll, replaceFrom, if_neg h, replaceAll]

/-- The cases of the pass: at the end, at a match, at a place without one. -/
theorem replaceAll_induction (hword : word ≠ []) {motive : List α → Prop} (nil : motive [])
    (found : ∀ s, motive s → motive (word ++ s))
    (next : ∀ c s, ¬ word <+: c :: s → motive s → motive (c :: s)) (s : List α) : motive s := by
  induction hn : s.length using Nat.strong_induction_on generalizing s with
  | _ n ih =>
    by_cases hmatch : word <+: s
    · obtain ⟨t, rfl⟩ := hmatch
      have hpos := List.length_pos_of_ne_nil hword
      rw [List.length_append] at hn
      exact found t (ih t.length (by omega) t rfl)
    · cases s with
      | nil => exact nil
      | cons c s =>
        rw [List.length_cons] at hn
        exact next c s hmatch (ih s.length (by omega) s rfl)

theorem replaceAll_singleton {c : α} (s : List α) :
    replaceAll [c] out s = s.flatMap fun d => if d = c then out else [d] := by
  induction s with
  | nil => rfl
  | cons d s ih =>
    rw [List.flatMap_cons, ← ih]
    by_cases hd : d = c
    · rw [if_pos hd, hd]
      exact replaceAll_found (List.cons_ne_nil c [])
    · rw [if_neg hd]
      exact replaceAll_next (by simpa using fun h : c = d => hd h.symm)

theorem replaceAll_eq_self (h : ¬ word <:+: s) : replaceAll word out s = s := by
  induction s with
  | nil => rfl
  | cons c s ih =>
    rw [replaceAll_next fun hstart => h hstart.isInfix, ih fun hwithin =>
      h (List.infix_cons hwithin)]

section Shrinking

variable (hshrinks : out.length < word.length)
include hshrinks

theorem length_replaceAll_le (s : List α) : (replaceAll word out s).length ≤ s.length := by
  have hword : word ≠ [] := List.ne_nil_of_length_pos (by omega)
  induction s using replaceAll_induction hword with
  | nil => exact Nat.le_refl 0
  | found s ih =>
    rw [replaceAll_found hword, List.length_append, List.length_append]
    omega
  | next c s hmatch ih =>
    rw [replaceAll_next hmatch]
    exact Nat.succ_le_succ ih

theorem length_replaceAll_lt (h : word <:+: s) : (replaceAll word out s).length < s.length := by
  have hword : word ≠ [] := List.ne_nil_of_length_pos (by omega)
  induction s using replaceAll_induction hword with
  | nil => exact absurd (List.eq_nil_of_infix_nil h) hword
  | found s ih =>
    have hle := length_replaceAll_le hshrinks s
    rw [replaceAll_found hword, List.length_append, List.length_append]
    omega
  | next c s hmatch ih =>
    rw [replaceAll_next hmatch]
    exact Nat.succ_lt_succ (ih ((List.infix_cons_iff.mp h).resolve_left hmatch))

theorem replaceAll_eq_self_iff : replaceAll word out s = s ↔ ¬ word <:+: s := by
  refine ⟨fun h hwithin => ?_, replaceAll_eq_self⟩
  have hlt := length_replaceAll_lt hshrinks hwithin
  rw [h] at hlt
  exact Nat.lt_irrefl _ hlt

end Shrinking

theorem replaceAll_append_cons {c : α} (hword : word ≠ []) (hc : c ∉ word) (s t : List α) :
    replaceAll word out (s ++ c :: t) = replaceAll word out s ++ c :: replaceAll word out t := by
  have hcross : ∀ s, word <+: s ++ c :: t → word <+: s := by
    intro s h
    rcases List.prefix_or_prefix_of_prefix h (List.prefix_append s (c :: t)) with hs | ⟨more, rfl⟩
    · exact hs
    · cases more with
      | nil => rw [List.append_nil]
      | cons d more =>
        obtain ⟨rfl, _⟩ := List.cons_prefix_cons.mp ((List.prefix_append_right_inj s).mp h)
        exact absurd (List.mem_append_right _ (.head _)) hc
  induction s using replaceAll_induction hword with
  | nil => exact replaceAll_next fun h => hword (List.prefix_nil.mp (hcross [] h))
  | found s ih =>
    rw [List.append_assoc, replaceAll_found hword, replaceAll_found hword, ih, List.append_assoc]
  | next d s hmatch ih =>
    have hnext : ¬ word <+: d :: (s ++ c :: t) := fun h => hmatch (hcross (d :: s) h)
    rw [List.cons_append, replaceAll_next hnext, replaceAll_next hmatch, ih, List.cons_append]

/-- The word starts nowhere inside of the text, whatever follows it. -/
def Clear (word s : List α) : Prop := ∀ t ∈ s.tails, t ≠ [] → ¬ t <+: word ∧ ¬ word <+: t

instance (word s : List α) : Decidable (Clear word s) :=
  inferInstanceAs (Decidable (∀ t ∈ s.tails, t ≠ [] → ¬ t <+: word ∧ ¬ word <+: t))

theorem Clear.replaceAll_append (h : Clear word s) (t : List α) :
    replaceAll word out (s ++ t) = s ++ replaceAll word out t := by
  induction s with
  | nil => rfl
  | cons c s ih =>
    have hhere := h (c :: s) (by simp) (List.cons_ne_nil c s)
    have hrest : Clear word s := fun u hu => h u (by simp [hu])
    rw [List.cons_append, replaceAll_next, ih hrest, List.cons_append]
    intro hstart
    rcases List.prefix_or_prefix_of_prefix hstart (List.prefix_append (c :: s) t) with hs | hs
    · exact hhere.2 hs
    · exact hhere.1 hs

omit [DecidableEq α] in
theorem clear_singleton {c first : α} {rest : List α} (h : c ≠ first) :
    Clear (first :: rest) [c] := by
  intro t ht hne
  rw [List.mem_tails, List.suffix_cons_iff, List.suffix_nil] at ht
  rcases ht with rfl | rfl
  · simp [h, h.symm]
  · exact absurd rfl hne

/-- Where each character is written as the word or clear of it, the words are exactly the
matches. -/
theorem replaceAll_flatMap {φ ψ : β → List α} (hword : word ≠ [])
    (hφ : ∀ b, φ b = word ∧ ψ b = out ∨ φ b = ψ b ∧ Clear word (φ b)) (s : List β) :
    replaceAll word out (s.flatMap φ) = s.flatMap ψ := by
  induction s with
  | nil => rfl
  | cons b s ih =>
    rw [List.flatMap_cons, List.flatMap_cons]
    rcases hφ b with ⟨hb, hout⟩ | ⟨hb, hclear⟩
    · rw [hb, hout, replaceAll_found hword, ih]
    · rw [hclear.replaceAll_append, ih, hb]

end Words

section Tables

variable [DecidableEq α] {first : α} {E : List (α × List α)} {s : List α}

/-- Each character with the word for it, or as itself. -/
def encode (E : List (α × List α)) (c : α) : List α := (E.lookup c).getD [c]

/-- The words are replaced one after the other, in the order of the table. -/
def decode (E : List (α × List α)) (s : List α) : List α :=
    E.foldl (fun s e => replaceAll e.2 [e.1] s) s

/-- Words that begin with `first` and have it nowhere else, that hold none of the table's
characters, and of which none begins another. -/
structure Coding (first : α) (E : List (α × List α)) : Prop where
  starts : ∀ e ∈ E, ∃ rest, e.2 = first :: rest ∧ rest ≠ [] ∧ first ∉ rest
  plain : ∀ e ∈ E, ∀ c ∈ e.2, E.lookup c = none
  apart : E.Pairwise fun e e' => e.1 ≠ e'.1 ∧ Clear e.2 e'.2

theorem Coding.tail {e : α × List α} (h : Coding first (e :: E)) : Coding first E where
  starts e' he' := h.starts e' (.tail _ he')
  plain e' he' c hc := by
    have hlookup := h.plain e' (.tail _ he') c hc
    rw [List.lookup_cons] at hlookup
    split at hlookup
    · cases hlookup
    · exact hlookup
  apart := (List.pairwise_cons.mp h.apart).2

theorem encode_cons (E : List (α × List α)) (c d : α) (word : List α) :
    encode ((c, word) :: E) d = if d = c then word else encode E d := by
  unfold encode
  rw [List.lookup_cons]
  by_cases hd : d = c
  · simp [hd]
  · rw [beq_eq_false_iff_ne.mpr hd, if_neg hd]

theorem encode_mem (E : List (α × List α)) (c : α) :
    encode E c = [c] ∨ ∃ e ∈ E, encode E c = e.2 := by
  unfold encode
  cases h : E.lookup c with
  | none => exact .inl rfl
  | some word =>
    obtain ⟨l₁, l₂, rfl, _⟩ := List.lookup_eq_some_iff.mp h
    exact .inr ⟨(c, word), by simp, rfl⟩

/-- A text without the first character of the words is a prefix of the encoded text only as
it is one of the text. -/
theorem prefix_of_prefix_flatMap (h : Coding first E) {t : List α} (hfirst : first ∉ t)
    (ht : t <+: s.flatMap (encode E)) : t <+: s := by
  induction t generalizing s with
  | nil => exact List.nil_prefix
  | cons c t ih =>
    obtain ⟨hne, hrest⟩ := List.ne_and_not_mem_of_not_mem_cons hfirst
    cases s with
    | nil => exact absurd (List.prefix_nil.mp ht) (List.cons_ne_nil c t)
    | cons d s =>
      rw [List.flatMap_cons] at ht
      rcases encode_mem E d with hd | ⟨e, he, hd⟩
      · rw [hd, List.singleton_append, List.cons_prefix_cons] at ht
        obtain ⟨rfl, ht⟩ := ht
        exact List.cons_prefix_cons.mpr ⟨rfl, ih hrest ht⟩
      · obtain ⟨rest, hword, _⟩ := h.starts e he
        rw [hd, hword, List.cons_append, List.cons_prefix_cons] at ht
        exact absurd ht.1.symm hne

/-- The matches of the first word are those in the text, and the words that stand for its
character. -/
theorem replaceAll_encode {c : α} {word : List α} (h : Coding first ((c, word) :: E)) (s : List α) :
    replaceAll word [c] (s.flatMap (encode ((c, word) :: E))) = (replaceAll word [c] s).flatMap
      (encode E) := by
  obtain ⟨rest, hword, _, hfirst⟩ := h.starts _ (.head _)
  simp only at hword
  subst hword
  have hne : first :: rest ≠ [] := List.cons_ne_nil _ _
  have hplain : (first :: rest).flatMap (encode ((c, first :: rest) :: E)) = first :: rest := by
    have heach : ∀ d ∈ first :: rest, encode ((c, first :: rest) :: E) d = [d] := fun d hd => by
      rw [encode, h.plain _ (.head _) d hd, Option.getD_none]
    rw [List.flatMap_congr heach, List.flatMap_singleton']
  have happart := (List.pairwise_cons.mp h.apart).1
  have hkept : encode E c = [c] := by
    have hnone : E.lookup c = none := List.lookup_eq_none_iff.mpr fun e he => by
      simpa using (happart e he).1
    rw [encode, hnone, Option.getD_none]
  induction s using replaceAll_induction hne with
  | nil => rfl
  | found s ih =>
    rw [List.flatMap_append, hplain, replaceAll_found hne, replaceAll_found hne, ih,
      List.flatMap_append, List.flatMap_singleton, hkept]
  | next d s hmatch ih =>
    rw [List.flatMap_cons, replaceAll_next hmatch, List.flatMap_cons, ← ih, encode_cons]
    split
    · rename_i hd
      rw [replaceAll_found hne, hd, hkept]
    rcases encode_mem E d with hd | ⟨e, he, hd⟩
    · rw [hd, List.singleton_append, List.singleton_append]
      refine replaceAll_next fun hstart => hmatch ?_
      rw [List.cons_prefix_cons] at hstart ⊢
      exact ⟨hstart.1, prefix_of_prefix_flatMap h hfirst hstart.2⟩
    · rw [hd]
      exact (happart e he).2.replaceAll_append _

/-- To decode what was encoded is to decode the text itself: the words that it had are lost. -/
theorem decode_encode (h : Coding first E) (s : List α) :
    decode E (s.flatMap (encode E)) = decode E s := by
  induction E generalizing s with
  | nil =>
    rw [show encode ([] : List (α × List α)) = fun c => [c] from rfl, List.flatMap_singleton']
  | cons e E ih =>
    obtain ⟨c, word⟩ := e
    change decode E (replaceAll word [c] _) = decode E (replaceAll word [c] s)
    rw [replaceAll_encode h, ih h.tail]

theorem length_decode_le (h : Coding first E) (s : List α) : (decode E s).length ≤ s.length := by
  induction E generalizing s with
  | nil => exact Nat.le_refl _
  | cons e E ih =>
    obtain ⟨rest, hword, hrest, _⟩ := h.starts e (.head _)
    have hpos := List.length_pos_of_ne_nil hrest
    have hshrinks : [e.1].length < e.2.length := by simp [hword, hpos]
    exact (ih h.tail _).trans (length_replaceAll_le hshrinks s)

theorem decode_eq_self_iff (h : Coding first E) (s : List α) :
    decode E s = s ↔ ∀ e ∈ E, ¬ e.2 <:+: s := by
  induction E with
  | nil => simp [decode]
  | cons e E ih =>
    obtain ⟨rest, hword, hrest, _⟩ := h.starts e (.head _)
    have hpos := List.length_pos_of_ne_nil hrest
    have hshrinks : [e.1].length < e.2.length := by simp [hword, hpos]
    rw [List.forall_mem_cons, ← replaceAll_eq_self_iff hshrinks, ← ih h.tail]
    change decode E (replaceAll e.2 [e.1] s) = s ↔ _
    refine ⟨fun hdecode => ?_, fun ⟨hself, hdecode⟩ => by rw [hself, hdecode]⟩
    -- neither step can make up for a character that the other takes away
    have hself : replaceAll e.2 [e.1] s = s := by
      by_contra hne
      have hwithin : e.2 <:+: s := by
        by_contra hno
        exact hne (replaceAll_eq_self hno)
      have hlt := length_replaceAll_lt hshrinks hwithin
      have hle := length_decode_le h.tail (replaceAll e.2 [e.1] s)
      rw [hdecode] at hle
      omega
    rw [hself] at hdecode
    exact ⟨hself, hdecode⟩

theorem decode_append_cons (h : Coding first E) {c : α} (hc : ∀ e ∈ E, c ∉ e.2) (s t : List α) :
    decode E (s ++ c :: t) = decode E s ++ c :: decode E t := by
  induction E generalizing s t with
  | nil => rfl
  | cons e E ih =>
    obtain ⟨rest, hword, _⟩ := h.starts e (.head _)
    have hne : e.2 ≠ [] := by simp [hword]
    change decode E (replaceAll e.2 [e.1] _) = decode E (replaceAll e.2 [e.1] s) ++
      c :: decode E (replaceAll e.2 [e.1] t)
    rw [replaceAll_append_cons hne (hc e (.head _)), ih h.tail fun e' he' => hc e' (.tail _ he')]

end Tables

end TextReplace
