import Mathlib.Algebra.Order.Field.Basic
import Mathlib.Tactic.Positivity
import Mathlib.Tactic.Ring
import SaasBackend.DurationText
import SaasBackend.Locales

/-! resolveLocale of src/i18n/index.js, and the grammar of the header that it reads. -/

set_option autoImplicit false

namespace SaasBackend

section Sorting

variable {α : Type} {le : α → α → Bool} {p : α → Bool} {l : List α} {x : α}

/-- `x` is the first of the best elements with `p`: none before it is as good, none after it
better. -/
def FirstBest (le : α → α → Bool) (p : α → Bool) (l : List α) (x : α) : Prop :=
  ∃ before after, l.filter p = before ++ x :: after ∧ (∀ y ∈ before, le y x = false) ∧
    (∀ y ∈ after, le x y = true)

theorem firstBest_of_find?_mergeSort (trans : ∀ a b c : α, le a b → le b c → le a c)
    (total : ∀ a b : α, le a b || le b a) (h : (l.mergeSort le).find? p = some x) :
    FirstBest le p l x := by
  induction l with
  | nil =>
    rw [List.mergeSort_nil] at h
    cases h
  | cons a l ih =>
    obtain ⟨l₁, l₂, hcons, hrest, hless⟩ := List.mergeSort_cons trans total a l
    rw [hrest, List.find?_append] at ih
    rw [hcons, List.find?_append] at h
    cases hfound : l₁.find? p with
    | some y =>
      rw [hfound] at h ih
      cases h
      obtain ⟨before, after, hsplit, hbefore, hafter⟩ := ih rfl
      have hworse : le a x = false := by simpa using hless x (List.mem_of_find?_eq_some hfound)
      rw [FirstBest, List.filter_cons]
      split
      · exact ⟨a :: before, after, by rw [hsplit, List.cons_append],
          List.forall_mem_cons.mpr ⟨hworse, hbefore⟩, hafter⟩
      · exact ⟨before, after, hsplit, hbefore, hafter⟩
    | none =>
      rw [hfound, Option.none_or] at h ih
      cases hp : p a with
      | false =>
        rw [List.find?_cons_of_neg (by simp [hp])] at h
        rw [FirstBest, List.filter_cons_of_neg (by simp [hp])]
        exact ih h
      | true =>
        rw [List.find?_cons_of_pos hp] at h
        cases h
        refine ⟨[], l.filter p, by rw [List.filter_cons_of_pos hp, List.nil_append], by simp,
          fun y hy => ?_⟩
        -- the others with `p` stand behind it in the sorted list
        obtain ⟨hmem, hpy⟩ := List.mem_filter.mp hy
        have hsorted := List.pairwise_mergeSort trans total (x :: l)
        rw [hcons] at hsorted
        have hperm : y ∈ l₁ ++ l₂ := by
          rw [← hrest]
          exact (List.mergeSort_perm l le).mem_iff.mpr hmem
        rcases List.mem_append.mp hperm with hy₁ | hy₂
        · exact absurd hpy (List.find?_eq_none.mp hfound y hy₁)
        · exact (List.pairwise_cons.mp (List.pairwise_append.mp hsorted).2.1).1 y hy₂

end Sorting

section Resolution

def trimChars (s : List Char) : List Char := (trim (String.ofList s)).toList

def readSign : List Char → Bool × List Char
  | '-' :: rest => (true, rest)
  | '+' :: rest => (false, rest)
  | rest => (false, rest)

def leadingExponent : List Char → Int
  | [] => 0
  | e :: rest =>
    let (negative, rest) := readSign rest
    if e.toLower = 'e' then (if negative then -1 else 1) * digitsValue
      (rest.takeWhile Char.isDigit) else 0

/-- The number that the text begins with; exact, where the source's is a floating-point number. -/
def parseFloat (text : List Char) : JsNumber :=
  let (negative, body) := readSign (text.dropWhile isJsSpace)
  let whole := body.takeWhile Char.isDigit
  let (fraction, rest) := match body.dropWhile Char.isDigit with
    | '.' :: rest => (rest.takeWhile Char.isDigit, rest.dropWhile Char.isDigit)
    | rest => ([], rest)
  if ['I', 'n', 'f', 'i', 'n', 'i', 't', 'y'] <+: body then .infinite negative
  else if (whole ++ fraction).isEmpty then .nan
  else .finite ((if negative then -1 else 1) * (digitsValue (whole ++ fraction) : Rat) /
    (10 ^ fraction.length : Nat) * 10 ^ leadingExponent rest)

example : parseFloat " -1.5e2;".toList = .finite (-150) ∧ parseFloat "0.".toList = .finite 0 := by
  decide +kernel

def JsNumber.lt : JsNumber → JsNumber → Bool
  | .finite a, .finite b => decide (a < b)
  | .finite _, .infinite negative => !negative
  | .infinite negative, .finite _ => negative
  | .infinite a, .infinite b => a && !b
  | _, _ => false

structure LocaleEntry where
  lang : String
  q : JsNumber

/-- Only ASCII letters get their lower case: no other character's is a letter of a supported
locale. -/
def parseEntry (part : List Char) : LocaleEntry :=
  let fields := (trimChars part).splitOn ';'
  let qParam := fields.tail.find? fun p => ['q', '='].isPrefixOf (trimChars p)
  { lang := String.ofList (((trimChars (fields.headD [])).splitOn '-').headD [] |>.map Char.toLower)
    q := match qParam with
      | some p => parseFloat ((trimChars p).drop 2)
      | none => .finite 1 }

/-- Where a weight is NaN the source's sort has an order of its engine's choice. -/
def resolveLocale (acceptLanguage : Option String) : String :=
  match acceptLanguage with
  | none | some "" => DEFAULT_LOCALE
  | some header =>
    let parsed := (((header.toList.splitOn ',').map parseEntry).filter (·.lang ≠ "")).mergeSort
      fun a b => !a.q.lt b.q
    ((parsed.map (·.lang)).find? SUPPORTED_LOCALES.contains).getD DEFAULT_LOCALE

end Resolution

def Blank (s : List Char) : Prop := ∀ c ∈ s, c = ' ' ∨ c = '\t'

/-- `0` or `1` with up to three decimals, which are zeros after a `1`. -/
structure QValue where
  one : Bool
  decimals : Option (List Char)
  digits : ∀ c ∈ decimals.getD [], c.isDigit = true
  short : (decimals.getD []).length ≤ 3
  zeros : one = true → ∀ c ∈ decimals.getD [], c = '0'

structure Weight where
  before : List Char
  after : List Char
  /-- whether the parameter is written `Q=` -/
  capital : Bool
  value : QValue
  blank : Blank before ∧ Blank after

/-- One range of an Accept-Language header with the blanks around it; its subtags may be of any
length. -/
structure LanguageRange where
  before : List Char
  primary : List Char
  subtags : List (List Char)
  weight : Option Weight
  after : List Char
  blank : Blank before ∧ Blank after
  primary_ne : primary ≠ []
  letters : (∀ c ∈ primary, c.isAlpha = true) ∨ primary = ['*'] ∧ subtags = []
  alphanum : ∀ t ∈ subtags, t ≠ [] ∧ ∀ c ∈ t, c.isAlphanum = true

namespace QValue

def text (v : QValue) : List Char := (if v.one then '1' else '0') :: v.decimals.elim [] ('.' :: ·)

def quality (v : QValue) : Rat :=
  if v.one then 1 else (digitsValue (v.decimals.getD []) : Rat) /
    (10 ^ (v.decimals.getD []).length : Nat)

end QValue

namespace Weight

def param (w : Weight) : List Char := (if w.capital then 'Q' else 'q') :: '=' :: w.value.text

def text (w : Weight) : List Char := w.before ++ ';' :: (w.after ++ w.param)

end Weight

namespace LanguageRange

def tag (r : LanguageRange) : List Char := r.primary ++ r.subtags.flatMap ('-' :: ·)

def core (r : LanguageRange) : List Char := r.tag ++ r.weight.elim [] Weight.text

def text (r : LanguageRange) : List Char := r.before ++ r.core ++ r.after

def lang (r : LanguageRange) : String := String.ofList (r.primary.map Char.toLower)

def quality (r : LanguageRange) : Rat := r.weight.elim 1 (·.value.quality)

def capital (r : LanguageRange) : Bool := r.weight.elim false (·.capital)

def read (r : LanguageRange) : Rat := if r.capital then 1 else r.quality

def entry (r : LanguageRange) : LocaleEntry := ⟨r.lang, .finite r.read⟩

def offered (r : LanguageRange) : Bool := SUPPORTED_LOCALES.contains r.lang

end LanguageRange

def qualityIn (h : List LanguageRange) (lang : String) : Rat :=
  ((h.filter (·.lang = lang)).map (·.quality)).foldr max 0

def headerText (h : List LanguageRange) : String :=
    String.ofList ([','].intercalate (h.map (·.text)))

section Reading

def Plain (s : List Char) : Prop := ∀ c ∈ s, isJsSpace c = false ∧ c ≠ ',' ∧ c ≠ ';'

theorem Plain.append {s t : List Char} (hs : Plain s) (ht : Plain t) : Plain (s ++ t) := by
  intro c hc
  rcases List.mem_append.mp hc with hc | hc
  · exact hs c hc
  · exact ht c hc

theorem Plain.cons {c : Char} {s : List Char} (hc : isJsSpace c = false ∧ c ≠ ',' ∧ c ≠ ';')
    (hs : Plain s) :
    Plain (c :: s) :=
  List.forall_mem_cons.mpr ⟨hc, hs⟩

theorem Plain.of_isAlphanum {s : List Char} (h : ∀ c ∈ s, c.isAlphanum = true) : Plain s := by
  intro c hc
  have hc := h c hc
  refine ⟨?_, ?_, ?_⟩
  · rw [Char.isAlphanum, Bool.or_eq_true] at hc
    rcases hc with hc | hc
    · exact isJsSpace_of_isAlpha hc
    · exact isJsSpace_of_isDigit hc
  · rintro rfl
    cases hc
  · rintro rfl
    cases hc

theorem Blank.spaces {s : List Char} (h : Blank s) : ∀ c ∈ s, isJsSpace c = true := by
  intro c hc
  rcases h c hc with rfl | rfl <;> rfl

theorem Blank.notMem {s : List Char} (h : Blank s) {c : Char}
    (hc : isJsSpace c = false) : c ∉ s := by
  intro hmem
  rw [h.spaces c hmem] at hc
  cases hc

theorem trimChars_padded {before s after : List Char} (hbefore : Blank before)
    (hafter : Blank after) (hhead : ∀ c ∈ s.head?, isJsSpace c = false)
    (hlast : ∀ c ∈ s.getLast?, isJsSpace c = false) :
    trimChars (before ++ s ++ after) = s :=
  trim_padded hbefore.spaces hafter.spaces hhead hlast

theorem trimChars_plain {before s after : List Char} (hbefore : Blank before) (hafter : Blank after)
    (h : Plain s) :
    trimChars (before ++ s ++ after) = s :=
  trimChars_padded hbefore hafter (fun c hc => (h c (List.mem_of_mem_head? hc)).1)
    fun c hc => (h c (List.mem_of_getLast? hc)).1

theorem blank_nil : Blank [] := by simp [Blank]

namespace QValue

theorem text_plain (v : QValue) : Plain v.text := by
  have hdecimals : Plain (v.decimals.getD []) :=
    Plain.of_isAlphanum fun c hc => by rw [Char.isAlphanum, v.digits c hc, Bool.or_true]
  refine Plain.cons (by cases v.one <;> decide) ?_
  cases hv : v.decimals with
  | none => simp [Plain]
  | some decimals =>
    rw [hv] at hdecimals
    exact Plain.cons (by decide) hdecimals

theorem digitsValue_cons (c : Char) (digits : List Char) :
    digitsValue (c :: digits) = (c.toNat - '0'.toNat) * 10 ^ digits.length +
      digitsValue digits := by
  have hfoldl : ∀ (digits : List Char) (n : Nat),
    digits.foldl (fun n c => 10 * n + (c.toNat - '0'.toNat)) n =
      n * 10 ^ digits.length + digitsValue digits := by
    intro digits
    induction digits with
    | nil => simp [digitsValue]
    | cons c digits ih =>
      intro n
      rw [List.foldl_cons, ih, List.length_cons, digitsValue.eq_def (c :: digits),
        List.foldl_cons, ih]
      ring
  rw [digitsValue, List.foldl_cons, hfoldl]
  ring

theorem digitsValue_zeros {digits : List Char} (h : ∀ c ∈ digits, c = '0') :
    digitsValue digits = 0 := by
  induction digits with
  | nil => rfl
  | cons c digits ih =>
    obtain ⟨rfl, hrest⟩ := List.forall_mem_cons.mp h
    rw [digitsValue_cons, ih hrest]
    simp

theorem digitsValue_lt {digits : List Char} (h : ∀ c ∈ digits, c.isDigit = true) :
    digitsValue digits < 10 ^ digits.length := by
  induction digits with
  | nil => decide
  | cons c digits ih =>
    obtain ⟨hc, hrest⟩ := List.forall_mem_cons.mp h
    have hdigit : c.toNat - '0'.toNat ≤ 9 := by
      simp only [Char.isDigit, Bool.and_eq_true, decide_eq_true_eq, UInt32.le_iff_toNat_le,
        Char.toNat_val] at hc
      have hbounds : ('0' : Char).toNat = 48 ∧ ('9' : Char).toNat = 57 := ⟨rfl, rfl⟩
      omega
    rw [digitsValue_cons, List.length_cons, pow_succ]
    have := Nat.mul_le_mul_right (10 ^ digits.length) hdigit
    have := ih hrest
    omega

theorem quality_nonneg (v : QValue) : 0 ≤ v.quality := by
  unfold quality
  split
  · norm_num
  · positivity

theorem quality_le_one (v : QValue) : v.quality ≤ 1 := by
  unfold quality
  split
  · exact le_refl 1
  · rw [div_le_one (by positivity)]
    exact_mod_cast (digitsValue_lt v.digits).le

theorem parseFloat_decimal {d : Char} (hd : d = '0' ∨ d = '1') {decimals : Option (List Char)}
    (hdecimals : ∀ c ∈ decimals.getD [], c.isDigit = true) :
    parseFloat (d :: decimals.elim [] ('.' :: ·)) =
      .finite ((digitsValue (d :: decimals.getD []) : Rat) /
        (10 ^ (decimals.getD []).length : Nat)) := by
  have hstart : ∀ rest, readSign ((d :: rest).dropWhile isJsSpace) = (false, d :: rest) := by
    rcases hd with rfl | rfl <;> exact fun rest => rfl
  have hdigit : d.isDigit = true := by rcases hd with rfl | rfl <;> rfl
  have hfinite : ∀ rest, ¬['I', 'n', 'f', 'i', 'n', 'i', 't', 'y'] <+: d :: rest := by
    intro rest h
    rcases hd with rfl | rfl <;> cases (List.cons_prefix_cons.mp h).1
  cases decimals with
  | none =>
    simp only [parseFloat, Option.elim_none, hstart, List.takeWhile_cons_of_pos hdigit,
      List.dropWhile_cons_of_pos hdigit, List.takeWhile_nil, List.dropWhile_nil, hfinite,
      leadingExponent]
    simp
  | some digits =>
    have htake : digits.takeWhile Char.isDigit = digits := List.takeWhile_eq_self_iff.mpr hdecimals
    have hdrop : digits.dropWhile Char.isDigit = [] := List.dropWhile_eq_nil_iff.mpr hdecimals
    have hpoint : ∀ rest, ('.' :: rest).takeWhile Char.isDigit = [] ∧
        ('.' :: rest).dropWhile Char.isDigit = '.' :: rest :=
      fun rest => ⟨rfl, rfl⟩
    simp only [parseFloat, Option.elim_some, hstart, List.takeWhile_cons_of_pos hdigit,
      List.dropWhile_cons_of_pos hdigit, (hpoint digits).1, (hpoint digits).2, htake, hdrop,
      hfinite, leadingExponent]
    simp

theorem parseFloat_text (v : QValue) : parseFloat v.text = .finite v.quality := by
  have hvalue : (digitsValue ((if v.one then '1' else '0') :: v.decimals.getD []) : Rat) /
      (10 ^ (v.decimals.getD []).length : Nat) = v.quality := by
    rw [digitsValue_cons, quality]
    split
    · rename_i hone
      rw [digitsValue_zeros (v.zeros hone)]
      simp
    · simp
  rw [text, parseFloat_decimal (by cases v.one <;> simp) v.digits, hvalue]

end QValue

theorem param_plain (w : Weight) : Plain w.param :=
  Plain.cons (by cases w.capital <;> decide) (Plain.cons (by decide) w.value.text_plain)

namespace LanguageRange

theorem primary_plain (r : LanguageRange) : Plain r.primary := by
  rcases r.letters with h | ⟨h, _⟩
  · exact Plain.of_isAlphanum fun c hc => by rw [Char.isAlphanum, h c hc, Bool.true_or]
  · rw [h]
    exact Plain.cons (by decide) (by simp [Plain])

theorem dash_notMem_primary (r : LanguageRange) : '-' ∉ r.primary := by
  intro hmem
  rcases r.letters with h | ⟨h, _⟩
  · cases h '-' hmem
  · rw [h] at hmem
    cases hmem with | tail _ hmem => cases hmem

theorem tag_plain (r : LanguageRange) : Plain r.tag := by
  refine r.primary_plain.append fun c hc => ?_
  obtain ⟨t, ht, hc⟩ := List.mem_flatMap.mp hc
  exact Plain.cons (by decide) (Plain.of_isAlphanum (r.alphanum t ht).2) c hc

theorem splitOn_tag (r : LanguageRange) : (r.tag.splitOn '-').headD [] = r.primary := by
  unfold tag
  cases r.subtags with
  | nil =>
    rw [List.flatMap_nil, List.append_nil, List.splitOn_eq_singleton r.dash_notMem_primary,
      List.headD_cons]
  | cons t subtags =>
    rw [List.flatMap_cons, List.cons_append,
      List.splitOn_append_cons_self_of_not_mem r.dash_notMem_primary, List.headD_cons]

theorem trimChars_text (r : LanguageRange) : trimChars r.text = r.core := by
  refine trimChars_padded r.blank.1 r.blank.2 ?_ ?_
  · have hne : r.tag ≠ [] := fun h => r.primary_ne (List.append_eq_nil_iff.mp h).1
    intro c hc
    rw [core, List.head?_append_of_ne_nil _ hne] at hc
    exact (r.tag_plain c (List.mem_of_mem_head? hc)).1
  · intro c hc
    unfold core at hc
    cases hw : r.weight with
    | none =>
      rw [hw, Option.elim_none, List.append_nil] at hc
      exact (r.tag_plain c (List.mem_of_getLast? hc)).1
    | some w =>
      rw [hw, Option.elim_some, Weight.text, ← List.cons_append, ← List.append_assoc,
        ← List.append_assoc, List.getLast?_append_of_ne_nil _ (by simp [Weight.param])] at hc
      exact (param_plain w c (List.mem_of_getLast? hc)).1

theorem parseEntry_text (r : LanguageRange) : parseEntry r.text = r.entry := by
  have htag : ';' ∉ r.tag := fun h => (r.tag_plain _ h).2.2 rfl
  cases hw : r.weight with
  | none =>
    have hfields : r.core.splitOn ';' = [r.tag] := by
      rw [core, hw, Option.elim_none, List.append_nil, List.splitOn_eq_singleton htag]
    have htrim : trimChars r.tag = r.tag := by
      simpa using trimChars_plain blank_nil blank_nil r.tag_plain
    simp only [parseEntry, trimChars_text, hfields, List.headD_cons, List.tail_cons, List.find?_nil,
      htrim, splitOn_tag]
    simp [entry, lang, read, quality, capital, hw]
  | some w =>
    have hfields : r.core.splitOn ';' = [r.tag ++ w.before, w.after ++ w.param] := by
      have hbefore : ';' ∉ r.tag ++ w.before := by simpa [htag] using w.blank.1.notMem rfl
      have hafter : ';' ∉ w.after ++ w.param := by
        simpa [w.blank.2.notMem (c := ';') rfl] using fun h => (param_plain w _ h).2.2 rfl
      rw [core, hw, Option.elim_some, Weight.text, ← List.append_assoc,
        List.splitOn_append_cons_self_of_not_mem hbefore, List.splitOn_eq_singleton hafter]
    have htrim : trimChars (r.tag ++ w.before) = r.tag :=
      trimChars_plain blank_nil w.blank.1 r.tag_plain
    have hparam : trimChars (w.after ++ w.param) = w.param := by
      simpa using trimChars_plain w.blank.2 blank_nil (param_plain w)
    simp only [parseEntry, trimChars_text, hfields, List.headD_cons, List.tail_cons, htrim,
      splitOn_tag]
    cases hcapital : w.capital with
    | true =>
      have hother : ['q', '='].isPrefixOf w.param = false := by
        rw [Weight.param, hcapital]
        rfl
      simp [hparam, hother, entry, lang, read, capital, hw, hcapital]
    | false =>
      have hstart : ['q', '='].isPrefixOf w.param = true := by simp [Weight.param, hcapital]
      have hdrop : w.param.drop 2 = w.value.text := rfl
      simp [hparam, hstart, hdrop, QValue.parseFloat_text, entry, lang, read, quality, capital, hw,
        hcapital]

theorem quality_nonneg (r : LanguageRange) : 0 ≤ r.quality := by
  unfold quality
  cases r.weight with
  | none => norm_num
  | some w => exact w.value.quality_nonneg

theorem quality_le_one (r : LanguageRange) : r.quality ≤ 1 := by
  unfold quality
  cases r.weight with
  | none => norm_num
  | some w => exact w.value.quality_le_one

theorem quality_le_read (r : LanguageRange) : r.quality ≤ r.read := by
  unfold read
  split
  · exact r.quality_le_one
  · exact le_refl _

theorem read_le_one (r : LanguageRange) : r.read ≤ 1 := by
  unfold read
  split
  · exact le_refl 1
  · exact r.quality_le_one

theorem comma_notMem_text (r : LanguageRange) : ',' ∉ r.text := by
  have hcore : ',' ∉ r.core := by
    intro h
    rcases List.mem_append.mp h with h | h
    · exact (r.tag_plain _ h).2.1 rfl
    · cases hw : r.weight with
      | none => rw [hw] at h; cases h
      | some w =>
        rw [hw, Option.elim_some, Weight.text, List.mem_append, List.mem_cons, List.mem_append] at h
        rcases h with h | h | h | h
        · exact w.blank.1.notMem rfl h
        · cases h
        · exact w.blank.2.notMem rfl h
        · exact (param_plain w _ h).2.1 rfl
  simp [text, hcore, r.blank.1.notMem (c := ',') rfl, r.blank.2.notMem (c := ',') rfl]

theorem text_ne_nil (r : LanguageRange) : r.text ≠ [] := by
  simp [text, core, tag, r.primary_ne]

theorem lang_ne (r : LanguageRange) : r.lang ≠ "" := by
  intro h
  have h := congrArg String.toList h
  rw [lang, String.toList_ofList, String.toList_empty, List.map_eq_nil_iff] at h
  exact r.primary_ne h

def byRead (a b : LanguageRange) : Bool := decide (b.read ≤ a.read)

end LanguageRange

theorem resolveLocale_headerText (h : List LanguageRange) : resolveLocale (some (headerText h)) =
    (((h.mergeSort LanguageRange.byRead).find? (·.offered)).map (·.lang)).getD DEFAULT_LOCALE := by
  cases h with
  | nil =>
    rw [List.mergeSort_nil]
    rfl
  | cons r h =>
    have hne : headerText (r :: h) ≠ "" := by
      intro heq
      have heq := congrArg String.toList heq
      rw [headerText, String.toList_ofList, String.toList_empty, List.map_cons] at heq
      cases h <;> simp [List.intercalate_cons_of_ne_nil, r.text_ne_nil] at heq
    have hsplit : (headerText (r :: h)).toList.splitOn ',' = (r :: h).map (·.text) := by
      rw [headerText, String.toList_ofList, List.splitOn_intercalate]
      · exact List.forall_mem_map.mpr fun r _ => r.comma_notMem_text
      · simp
    have hentries : ((r :: h).map (·.text)).map parseEntry = (r :: h).map (·.entry) := by
      simp only [List.map_map, Function.comp_def, LanguageRange.parseEntry_text]
    have hnamed : ((r :: h).map (·.entry)).filter (·.lang ≠ "") = (r :: h).map (·.entry) :=
      List.filter_eq_self.mpr (List.forall_mem_map.mpr fun s _ => decide_eq_true s.lang_ne)
    have hsort : ((r :: h).mergeSort LanguageRange.byRead).map (·.entry) =
        ((r :: h).map (·.entry)).mergeSort fun a b => !a.q.lt b.q := by
      refine List.map_mergeSort fun a _ b _ => ?_
      simp only [LanguageRange.byRead, LanguageRange.entry, JsNumber.lt, ← decide_not, not_lt]
    unfold resolveLocale
    split
    · rename_i heq
      cases heq
    · rename_i heq
      exact absurd (Option.some.inj heq) hne
    · rename_i heq
      obtain rfl := Option.some.inj heq
      simp only [hsplit, hentries, hnamed, ← hsort, List.map_map, List.find?_map]
      rfl

end Reading

section Negotiation

variable {h : List LanguageRange} {L M : String} {r s : LanguageRange}

/-- `L` is the supported language that the header prefers: of largest quality, and the first with
it. -/
structure Preferred (h : List LanguageRange) (L : String) : Prop where
  supported : L ∈ SUPPORTED_LOCALES
  wanted : 0 < qualityIn h L
  largest : ∀ M ∈ SUPPORTED_LOCALES, qualityIn h M ≤ qualityIn h L
  first : ∃ before r after, h = before ++ r :: after ∧ r.lang = L ∧ r.quality = qualityIn h L ∧
    ∀ s ∈ before, s.lang ∈ SUPPORTED_LOCALES → s.quality ≠ qualityIn h L

def NoneWanted (h : List LanguageRange) : Prop := ∀ L ∈ SUPPORTED_LOCALES, qualityIn h L = 0

def FollowsHeader (h : List LanguageRange) (L : String) : Prop :=
  (Preferred h L ∨ NoneWanted h) ∧ (L = DEFAULT_LOCALE ↔ NoneWanted h ∨ Preferred h DEFAULT_LOCALE)

def LanguageRange.full (r : LanguageRange) : Bool := r.capital || decide (r.quality = 1)

/-- What the reading of the header gets wrong does not show. -/
structure Readable (h : List LanguageRange) : Prop where
  /-- if every range of a supported language refuses it, the first of them is of the default -/
  refused : (∀ r ∈ h.filter (·.offered), r.quality = 0 ∧ r.capital = false) →
    ∀ r ∈ (h.filter (·.offered)).head?, r.lang = DEFAULT_LOCALE
  /-- the first range of a supported language with a `Q=` or quality 1, if it has a `Q=` and a
  smaller quality, is still of the language to be answered -/
  capital : ∀ r ∈ (h.filter (·.offered)).find? (·.full), r.quality < 1 →
    Preferred h r.lang ∨ NoneWanted h ∧ r.lang = DEFAULT_LOCALE

theorem qualityIn_nonneg (h : List LanguageRange) (L : String) : 0 ≤ qualityIn h L := by
  unfold qualityIn
  induction (h.filter (·.lang = L)).map (·.quality) with
  | nil => exact le_refl 0
  | cons q qs ih => exact le_max_of_le_right ih

theorem le_qualityIn (hr : r ∈ h) : r.quality ≤ qualityIn h r.lang := by
  have hmem : r.quality ∈ (h.filter (·.lang = r.lang)).map (·.quality) :=
    List.mem_map_of_mem (List.mem_filter.mpr ⟨hr, decide_eq_true rfl⟩)
  unfold qualityIn
  generalize (h.filter (·.lang = r.lang)).map (·.quality) = qualities at hmem ⊢
  induction qualities with
  | nil => cases hmem
  | cons q qs ih =>
    rcases List.mem_cons.mp hmem with heq | hmem
    · exact heq ▸ le_max_left _ _
    · exact le_max_of_le_right (ih hmem)

theorem exists_of_qualityIn_pos (hpos : 0 < qualityIn h L) :
    ∃ r ∈ h, r.lang = L ∧ r.quality = qualityIn h L := by
  have hmem : qualityIn h L ∈ (h.filter (·.lang = L)).map (·.quality) := by
    unfold qualityIn at hpos ⊢
    generalize (h.filter (·.lang = L)).map (·.quality) = qualities at hpos ⊢
    induction qualities with
    | nil => exact absurd hpos (lt_irrefl _)
    | cons q qs ih =>
      rw [List.foldr_cons] at hpos ⊢
      rcases max_choice q (qs.foldr max 0) with heq | heq
      · rw [heq]
        exact .head _
      · rw [heq] at hpos ⊢
        exact .tail _ (ih hpos)
  obtain ⟨r, hr, hq⟩ := List.mem_map.mp hmem
  obtain ⟨hr, hlang⟩ := List.mem_filter.mp hr
  exact ⟨r, hr, of_decide_eq_true hlang, hq⟩

theorem offered_iff : r.offered = true ↔ r.lang ∈ SUPPORTED_LOCALES := by
  rw [LanguageRange.offered, List.contains_iff_mem]

theorem noneWanted_iff : NoneWanted h ↔ ∀ r ∈ h, r.offered = true → r.quality = 0 := by
  constructor
  · intro hnone r hr hoffered
    have hle := le_qualityIn hr
    rw [hnone r.lang (offered_iff.mp hoffered)] at hle
    exact le_antisymm hle r.quality_nonneg
  · intro hzero L hL
    by_contra hne
    obtain ⟨r, hr, rfl, hq⟩ :=
      exists_of_qualityIn_pos (lt_of_le_of_ne (qualityIn_nonneg h L) (Ne.symm hne))
    exact hne (by rw [← hq, hzero r hr (offered_iff.mpr hL)])

theorem Preferred.not_noneWanted (hL : Preferred h L) : ¬NoneWanted h := fun hnone =>
  hL.wanted.ne' (hnone L hL.supported)

theorem Preferred.unique (hL : Preferred h L) (hM : Preferred h M) : L = M := by
  have hfind : ∀ {L}, Preferred h L → ∃ r, r.lang = L ∧
      h.find? (fun s => decide (s.lang ∈ SUPPORTED_LOCALES ∧ s.quality = qualityIn h L)) =
        some r := by
    intro L hL
    obtain ⟨before, r, after, hsplit, hlang, hq, hbefore⟩ := hL.first
    refine ⟨r, hlang, List.find?_eq_some_iff_append.mpr ⟨?_, before, after, hsplit, fun s hs => ?_⟩⟩
    · exact decide_eq_true ⟨hlang ▸ hL.supported, hq⟩
    · simpa [imp_iff_not_or] using hbefore s hs
  have hequal : qualityIn h L = qualityIn h M :=
    le_antisymm (hM.largest L hL.supported) (hL.largest M hM.supported)
  obtain ⟨r, rfl, hr⟩ := hfind hL
  obtain ⟨s, rfl, hs⟩ := hfind hM
  rw [hequal, hs] at hr
  rw [Option.some.inj hr]

theorem followsHeader_iff :
    FollowsHeader h L ↔ Preferred h L ∨ NoneWanted h ∧ L = DEFAULT_LOCALE := by
  constructor
  · rintro ⟨hL | hnone, hdefault⟩
    · exact .inl hL
    · exact .inr ⟨hnone, hdefault.mpr (.inl hnone)⟩
  · rintro (hL | ⟨hnone, heq⟩)
    · refine ⟨.inl hL, fun heq => .inr (heq ▸ hL), ?_⟩
      rintro (hnone | hdefault)
      · exact absurd hnone hL.not_noneWanted
      · exact hL.unique hdefault
    · exact ⟨.inr hnone, fun _ => .inl hnone, fun _ => heq⟩

theorem LanguageRange.read_of_full (hfull : r.full = true) : r.read = 1 := by
  rw [full, Bool.or_eq_true, decide_eq_true_eq] at hfull
  rcases hfull with hcapital | hone
  · simp [read, hcapital]
  · exact le_antisymm r.read_le_one (hone ▸ r.quality_le_read)

theorem LanguageRange.read_of_not_full (hplain : r.full = false) :
    r.read = r.quality ∧ r.read < 1 := by
  rw [full, Bool.or_eq_false_iff, decide_eq_false_iff_not] at hplain
  have hread : r.read = r.quality := by simp [read, hplain.1]
  exact ⟨hread, hread ▸ lt_of_le_of_ne r.quality_le_one hplain.2⟩

section Found

variable (hbest : FirstBest LanguageRange.byRead (·.offered) h r)

include hbest

theorem mem_of_firstBest : r ∈ h ∧ r.offered = true := by
  obtain ⟨before, after, hsplit, _⟩ := hbest
  exact List.mem_filter.mp (by rw [hsplit]; exact List.mem_append_right _ (.head _))

theorem read_le_of_firstBest (hs : s ∈ h) (hoffered : s.offered = true) : s.read ≤ r.read := by
  obtain ⟨before, after, hsplit, hbefore, hafter⟩ := hbest
  have hmem : s ∈ h.filter (·.offered) := List.mem_filter.mpr ⟨hs, hoffered⟩
  rw [hsplit, List.mem_append, List.mem_cons] at hmem
  rcases hmem with hmem | rfl | hmem
  · exact (lt_of_not_ge (of_decide_eq_false (hbefore s hmem))).le
  · exact le_refl _
  · exact of_decide_eq_true (hafter s hmem)

/-- Where the quality of the range found is read right, the language is the preferred one. -/
theorem preferred_of_firstBest (hread : r.read = r.quality) (hpos : 0 < r.quality) :
    Preferred h r.lang := by
  obtain ⟨hr, hoffered⟩ := mem_of_firstBest hbest
  have hle : ∀ M ∈ SUPPORTED_LOCALES, qualityIn h M ≤ r.quality := by
    intro M hM
    rcases (qualityIn_nonneg h M).eq_or_lt with hzero | hwanted
    · exact hzero ▸ hpos.le
    · obtain ⟨s, hs, rfl, hq⟩ := exists_of_qualityIn_pos hwanted
      calc qualityIn h s.lang = s.quality := hq.symm
        _ ≤ s.read := s.quality_le_read
        _ ≤ r.read := read_le_of_firstBest hbest hs (offered_iff.mpr hM)
        _ = r.quality := hread
  have hquality : qualityIn h r.lang = r.quality :=
    le_antisymm (hle _ (offered_iff.mp hoffered)) (le_qualityIn hr)
  obtain ⟨before, after, hsplit, hbefore, _⟩ := hbest
  obtain ⟨front, rest, rfl, hfront, hrest⟩ := List.filter_eq_append_iff.mp hsplit
  obtain ⟨skipped, back, rfl, hskipped, _, _⟩ := List.filter_eq_cons_iff.mp hrest
  refine ⟨offered_iff.mp hoffered, by rw [hquality]; exact hpos,
    fun M hM => by
      rw [hquality]; exact hle M hM, front ++ skipped, r, back, by
        rw [List.append_assoc], rfl, hquality.symm, fun s hs hsupported hq => ?_⟩
  rcases List.mem_append.mp hs with hs | hs
  · -- one that stands in front of it is read as less
    have hless : s.read < r.read := by
      refine lt_of_not_ge (of_decide_eq_false (hbefore s ?_))
      rw [← hfront]
      exact List.mem_filter.mpr ⟨hs, offered_iff.mpr hsupported⟩
    have heq : s.quality = r.read := (hq.trans hquality).trans hread.symm
    exact (s.quality_le_read.trans_lt hless).ne heq
  · exact hskipped s hs (offered_iff.mpr hsupported)

/-- The first range that is read as of quality 1 is the one found. -/
theorem readable_iff_of_full (hfull : r.full = true) :
    Readable h ↔ Preferred h r.lang ∨ NoneWanted h ∧ r.lang = DEFAULT_LOCALE := by
  have ⟨before, after, hsplit, hbefore, _⟩ := hbest
  have hfind : (h.filter (·.offered)).find? (·.full) = some r := by
    refine List.find?_eq_some_iff_append.mpr ⟨hfull, before, after, hsplit, fun s hs => ?_⟩
    rw [Bool.not_eq_true']
    by_contra hs'
    have hless := lt_of_not_ge (of_decide_eq_false (hbefore s hs))
    rw [LanguageRange.read_of_full hfull, LanguageRange.read_of_full (by simpa using hs')] at hless
    exact lt_irrefl _ hless
  constructor
  · intro hreadable
    by_cases hone : r.quality = 1
    · have hread : r.read = r.quality := by rw [LanguageRange.read_of_full hfull, hone]
      exact .inl (preferred_of_firstBest hbest hread (by rw [hone]; exact one_pos))
    · exact hreadable.capital r hfind (lt_of_le_of_ne r.quality_le_one hone)
  · intro hright
    refine ⟨fun hrefused => ?_, fun s hs _ => ?_⟩
    · obtain ⟨hzero, hcapital⟩ := hrefused r (List.mem_filter.mpr (mem_of_firstBest hbest))
      simp [LanguageRange.full, hzero, hcapital] at hfull
    · rw [hfind] at hs
      cases hs
      exact hright

theorem not_full_of_firstBest (hplain : r.full = false) :
    ∀ s ∈ h.filter (·.offered), s.full = false := by
  intro s hs
  obtain ⟨hs, hoffered⟩ := List.mem_filter.mp hs
  by_contra hfull
  have hle := read_le_of_firstBest hbest hs hoffered
  rw [LanguageRange.read_of_full (by simpa using hfull)] at hle
  exact absurd (LanguageRange.read_of_not_full hplain).2 hle.not_gt

/-- If all supported languages are refused, the range found is the first of them. -/
theorem head?_of_firstBest (hzero : r.read = 0) : (h.filter (·.offered)).head? = some r := by
  obtain ⟨before, after, hsplit, hbefore, _⟩ := hbest
  cases before with
  | nil => rw [hsplit, List.nil_append, List.head?_cons]
  | cons s before =>
    have hbelow := lt_of_not_ge (of_decide_eq_false (hbefore s (.head _)))
    rw [hzero] at hbelow
    exact absurd (s.quality_nonneg.trans s.quality_le_read) hbelow.not_ge

theorem readable_iff_of_not_full (hplain : r.full = false) :
    Readable h ↔ Preferred h r.lang ∨ NoneWanted h ∧ r.lang = DEFAULT_LOCALE := by
  have hread := (LanguageRange.read_of_not_full hplain).1
  have hfind : (h.filter (·.offered)).find? (·.full) = none :=
    List.find?_eq_none.mpr fun s hs => by simp [not_full_of_firstBest hbest hplain s hs]
  rcases r.quality_nonneg.eq_or_lt with hzero | hpos
  · have hhead := head?_of_firstBest hbest (hread.trans hzero.symm)
    have hrefused : ∀ s ∈ h, s.offered = true → s.quality = 0 := by
      intro s hs hoffered
      have hle := s.quality_le_read.trans (read_le_of_firstBest hbest hs hoffered)
      rw [hread, ← hzero] at hle
      exact le_antisymm hle s.quality_nonneg
    have hnone := noneWanted_iff.mpr hrefused
    constructor
    · intro hreadable
      refine .inr ⟨hnone, hreadable.refused (fun s hs => ?_) r hhead⟩
      have hs' := not_full_of_firstBest hbest hplain s hs
      obtain ⟨hmem, hoffered⟩ := List.mem_filter.mp hs
      rw [LanguageRange.full, Bool.or_eq_false_iff] at hs'
      exact ⟨hrefused s hmem hoffered, hs'.1⟩
    · rintro (hpreferred | ⟨_, hdefault⟩)
      · exact absurd hnone hpreferred.not_noneWanted
      · refine ⟨fun _ s hs => ?_, fun s hs => ?_⟩
        · rw [hhead] at hs
          cases hs
          exact hdefault
        · rw [hfind] at hs
          cases hs
  · refine iff_of_true ⟨fun hrefused => ?_, fun s hs => ?_⟩
      (.inl (preferred_of_firstBest hbest hread hpos))
    · exact absurd (hrefused r (List.mem_filter.mpr (mem_of_firstBest hbest))).1 hpos.ne'
    · rw [hfind] at hs
      cases hs

end Found

theorem resolveLocale_follows_iff (h : List LanguageRange) :
    FollowsHeader h (resolveLocale (some (headerText h))) ↔ Readable h := by
  rw [followsHeader_iff, resolveLocale_headerText]
  cases hfound : (h.mergeSort LanguageRange.byRead).find? (·.offered) with
  | none =>
    have hoffered : ∀ r ∈ h, ¬r.offered = true := fun r hr =>
      List.find?_eq_none.mp hfound r ((List.mergeSort_perm h _).mem_iff.mpr hr)
    have hnone : NoneWanted h := noneWanted_iff.mpr fun r hr hr' => absurd hr' (hoffered r hr)
    have hempty : h.filter (·.offered) = [] := List.filter_eq_nil_iff.mpr hoffered
    exact iff_of_true (.inr ⟨hnone, rfl⟩) ⟨by simp [hempty], by simp [hempty]⟩
  | some r =>
    have hbest : FirstBest LanguageRange.byRead (·.offered) h r := by
      refine firstBest_of_find?_mergeSort (fun a b c hab hbc => ?_) (fun a b => ?_) hfound
      · exact decide_eq_true (le_trans (of_decide_eq_true hbc) (of_decide_eq_true hab))
      · simpa [LanguageRange.byRead] using le_total b.read a.read
    cases hfull : r.full with
    | true => exact (readable_iff_of_full hbest hfull).symm
    | false => exact (readable_iff_of_not_full hbest hfull).symm

def frRefused : LanguageRange where
  before := []
  primary := ['f', 'r']
  subtags := []
  weight := some
    { before := []
      after := []
      capital := false
      value :=
        { one := false, decimals := none, digits := by simp, short := by decide, zeros := by simp }
      blank := by simp [Blank] }
  after := []
  blank := by simp [Blank]
  primary_ne := by simp
  letters := .inl (List.all_eq_true.mp (by decide))
  alphanum := by simp

theorem refused_language_answered : headerText [frRefused] = "fr;q=0" ∧
    resolveLocale (some "fr;q=0") = "fr" ∧
    qualityIn [frRefused] "fr" = 0 ∧ ¬FollowsHeader [frRefused] "fr" := by
  have htext : headerText [frRefused] = "fr;q=0" := by decide +kernel
  have hnone : NoneWanted [frRefused] :=
    noneWanted_iff.mpr (by simp [frRefused, LanguageRange.quality, QValue.quality, digitsValue])
  refine ⟨htext, ?_, ?_, fun h => ?_⟩
  · rw [← htext, resolveLocale_headerText, List.mergeSort_singleton]
    decide +kernel
  · exact hnone "fr" (by decide)
  · rcases followsHeader_iff.mp h with h | ⟨_, h⟩
    · exact h.not_noneWanted hnone
    · exact absurd h (by decide)

end Negotiation

end SaasBackend
