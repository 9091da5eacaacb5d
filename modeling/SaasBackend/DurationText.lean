import SaasBackend.OAuthState

set_option autoImplicit false

namespace SaasBackend

/-- DURATION_UNIT_MS; without a unit the number is one of milliseconds. -/
def durationUnitMs : List Char → Option Nat
  | [] | ['m', 's'] => some 1
  | ['s'] => some 1000
  | ['m'] => some (60 * 1000)
  | ['h'] => some (60 * 60 * 1000)
  | ['d'] => some (24 * 60 * 60 * 1000)
  | ['w'] => some (7 * 24 * 60 * 60 * 1000)
  | ['y'] => some (36525 * 24 * 60 * 60 * 10)
  | _ => none

/-- `(\d+(?:\.\d+)?)`: the digits before and after the point, and what follows. -/
def matchNumber (text : List Char) : List Char × List Char × List Char :=
  let whole := text.takeWhile Char.isDigit
  match text.dropWhile Char.isDigit with
  | '.' :: rest =>
    if (rest.takeWhile Char.isDigit).isEmpty then (whole, [], '.' :: rest)
    else (whole, rest.takeWhile Char.isDigit, rest.dropWhile Char.isDigit)
  | rest => (whole, [], rest)

def digitsValue (digits : List Char) : Nat :=
  digits.foldl (fun n c => 10 * n + (c.toNat - '0'.toNat)) 0

/-- Exact, where the source multiplies floating-point numbers. -/
def parseDurationMs (value : Option String) (fallbackMs : Rat) : Rat :=
  let (whole, fraction, rest) := matchNumber (trim (value.getD "")).toList
  match whole, durationUnitMs ((rest.dropWhile isJsSpace).map Char.toLower) with
  | [], _ | _, none => fallbackMs
  | _, some unit => (digitsValue (whole ++ fraction) : Rat) / (10 ^ fraction.length : Nat) * unit

example : parseDurationMs (some " 1.5 H") 0 = 5400000 := by decide +kernel

def msUnits : List (List Char × Nat) :=
  [("milliseconds", 1), ("millisecond", 1), ("msecs", 1), ("msec", 1), ("ms", 1),
    ("seconds", 1000), ("second", 1000), ("secs", 1000), ("sec", 1000), ("s", 1000),
    ("minutes", 60 * 1000), ("minute", 60 * 1000), ("mins", 60 * 1000), ("min", 60 * 1000),
      ("m", 60 * 1000),
    ("hours", 60 * 60 * 1000), ("hour", 60 * 60 * 1000), ("hrs", 60 * 60 * 1000),
      ("hr", 60 * 60 * 1000),
    ("h", 60 * 60 * 1000),
    ("days", 24 * 60 * 60 * 1000), ("day", 24 * 60 * 60 * 1000), ("d", 24 * 60 * 60 * 1000),
    ("weeks", 7 * 24 * 60 * 60 * 1000), ("week", 7 * 24 * 60 * 60 * 1000),
      ("w", 7 * 24 * 60 * 60 * 1000),
    ("years", 36525 * 24 * 60 * 60 * 10), ("year", 36525 * 24 * 60 * 60 * 10),
      ("yrs", 36525 * 24 * 60 * 60 * 10),
    ("yr", 36525 * 24 * 60 * 60 * 10), ("y", 36525 * 24 * 60 * 60 * 10)].map fun u =>
      (u.1.toList, u.2)

def shortUnits : List (List Char) := ["ms", "s", "m", "h", "d", "w", "y"].map String.toList

/-- A text of the grammar: a sign, a decimal number that may start with its point, spaces and
a unit in any case. -/
structure MsText where
  negative : Bool
  whole : List Char
  /-- the digits after the point, where there is one -/
  fraction : Option (List Char)
  spaces : Nat
  unit : Option (List Char)
  digits : ∀ c ∈ whole ++ fraction.getD [], c.isDigit = true
  nonempty : fraction.getD whole ≠ []
  known : ∀ u ∈ unit, ∃ n, (u.map Char.toLower, n) ∈ msUnits

namespace MsText

def number (d : MsText) : List Char := d.whole ++ d.fraction.elim [] ('.' :: ·)

def text (d : MsText) : List Char :=
  (if d.negative then ['-'] else []) ++ d.number ++ List.replicate d.spaces ' ' ++ d.unit.getD []

def unitMs (d : MsText) : Nat :=
  match d.unit with
  | none => 1
  | some u => (msUnits.lookup (u.map Char.toLower)).getD 1

def value (d : MsText) : Rat :=
  (if d.negative then -1 else 1) * (digitsValue (d.whole ++ d.fraction.getD []) : Rat) /
    (10 ^ (d.fraction.getD []).length : Nat) * d.unitMs

end MsText

section Characters

theorem isAlpha_iff {c : Char} :
    c.isAlpha = true ↔ 65 ≤ c.toNat ∧ c.toNat ≤ 90 ∨ 97 ≤ c.toNat ∧ c.toNat ≤ 122 := by
  have halpha : c.isAlpha = (decide (c.val ≥ 'A'.val ∧ c.val ≤ 'Z'.val) ||
      decide (c.val ≥ 'a'.val) && decide (c.val ≤ 'z'.val)) := rfl
  simp only [halpha, Bool.or_eq_true, Bool.and_eq_true, decide_eq_true_eq, ge_iff_le,
    UInt32.le_iff_toNat_le, Char.toNat_val]
  exact Iff.rfl

theorem isJsSpace_of_isAlpha {c : Char} (h : c.isAlpha = true) : isJsSpace c = false := by
  rw [isAlpha_iff] at h
  simp only [isJsSpace, Bool.or_eq_false_iff, Bool.and_eq_false_iff, beq_eq_false_iff_ne,
    decide_eq_false_iff_not]
  omega

theorem isDigit_of_isAlpha {c : Char} (h : c.isAlpha = true) : c.isDigit = false ∧ c ≠ '.' := by
  refine ⟨?_, fun heq => by subst heq; cases h⟩
  rw [isAlpha_iff] at h
  have hbounds : ('0' : Char).toNat = 48 ∧ ('9' : Char).toNat = 57 := ⟨rfl, rfl⟩
  simp only [Char.isDigit, Bool.and_eq_false_iff, decide_eq_false_iff_not, ge_iff_le,
    UInt32.le_iff_toNat_le, Char.toNat_val]
  omega

theorem isAlpha_of_toLower {c : Char} (h : c.toLower.isLower = true) : c.isAlpha = true := by
  have halpha : c.isAlpha = (c.isUpper || c.isLower) := rfl
  unfold Char.toLower at h
  split at h
  · rename_i hupper
    have hupper : c.isUpper = true := decide_eq_true hupper
    rw [halpha, hupper, Bool.true_or]
  · rw [halpha, h, Bool.or_true]

theorem isAlpha_of_unit {u : List Char} {n : Nat} (h : (u.map Char.toLower, n) ∈ msUnits) {c : Char}
    (hc : c ∈ u) :
    c.isAlpha = true := by
  have hlower : ∀ unit ∈ msUnits, unit.1.all Char.isLower = true := by decide
  exact isAlpha_of_toLower (List.all_eq_true.mp (hlower _ h) _ (List.mem_map_of_mem hc))

theorem unit_ne_nil {u : List Char} {n : Nat} (h : (u.map Char.toLower, n) ∈ msUnits) : u ≠ [] := by
  have hnonempty : ∀ unit ∈ msUnits, unit.1 ≠ [] := by decide
  rintro rfl
  exact hnonempty _ h rfl

theorem trim_padded {before s after : List Char} (hbefore : ∀ c ∈ before, isJsSpace c = true)
    (hafter : ∀ c ∈ after, isJsSpace c = true) (hhead : ∀ c ∈ s.head?, isJsSpace c = false)
    (hlast : ∀ c ∈ s.getLast?, isJsSpace c = false) :
    (trim (String.ofList (before ++ s ++ after))).toList = s := by
  have hstands : ∀ s : List Char, (∀ c ∈ s.head?, isJsSpace c = false) →
      s.dropWhile isJsSpace = s := by
    rintro (_ | ⟨c, s⟩) h
    · rfl
    · rw [List.dropWhile_cons_of_neg (by simp [h c rfl])]
  simp only [trim, String.toList_ofList, List.append_assoc, List.dropWhile_append_of_pos hbefore]
  cases s with
  | nil => simp [List.dropWhile_eq_nil_iff.mpr hafter]
  | cons c s =>
    rw [hstands (c :: s ++ after) hhead, List.reverse_append,
      List.dropWhile_append_of_pos fun c hc => hafter c (List.mem_reverse.mp hc),
      hstands _ (by rwa [List.head?_reverse]), List.reverse_reverse]

theorem trim_append_spaces {s : List Char} (hhead : ∀ c ∈ s.head?, isJsSpace c = false)
    (hlast : ∀ c ∈ s.getLast?, isJsSpace c = false) (n : Nat) :
    (trim (String.ofList (s ++ List.replicate n ' '))).toList = s := by
  have hnone : ∀ c ∈ ([] : List Char), isJsSpace c = true := by simp
  have hspaces : ∀ c ∈ List.replicate n ' ', isJsSpace c = true := fun c hc => by
    rw [List.eq_of_mem_replicate hc]; rfl
  have htrim := trim_padded hnone hspaces hhead hlast
  rwa [List.nil_append] at htrim

end Characters

section Reading

theorem matchNumber_append {whole rest : List Char} {fraction : Option (List Char)}
    (hdigits : ∀ c ∈ whole ++ fraction.getD [], c.isDigit = true) (hfraction : fraction ≠ some [])
    (hrest : ∀ c ∈ rest.head?, c.isDigit = false ∧ c ≠ '.') :
    matchNumber (whole ++ fraction.elim [] ('.' :: ·) ++ rest) =
      (whole, fraction.getD [], rest) := by
  have hspan : ∀ digits rest : List Char, (∀ c ∈ digits, c.isDigit = true) →
    (∀ c ∈ rest.head?, c.isDigit = false) →
      (digits ++ rest).takeWhile Char.isDigit = digits ∧ (digits ++ rest).dropWhile Char.isDigit =
        rest := by
    intro digits rest hdigits hhead
    rw [List.takeWhile_append_of_pos hdigits, List.dropWhile_append_of_pos hdigits]
    cases rest with
    | nil => simp
    | cons c rest => simp [hhead c rfl]
  have hwhole : ∀ c ∈ whole, c.isDigit = true := fun c hc => hdigits c (List.mem_append_left _ hc)
  cases fraction with
  | none =>
    obtain ⟨htake, hdrop⟩ := hspan whole rest hwhole fun c hc => (hrest c hc).1
    simp only [matchNumber, Option.elim_none, List.append_nil, htake, hdrop, Option.getD_none]
    split
    · exact absurd rfl (hrest '.' rfl).2
    · rfl
  | some digits =>
    obtain ⟨htake, hdrop⟩ := hspan whole ('.' :: (digits ++ rest)) hwhole (by rintro c ⟨⟩; rfl)
    obtain ⟨htake', hdrop'⟩ :=
      hspan digits rest (fun c hc => hdigits c (List.mem_append_right _ hc)) fun c hc =>
      (hrest c hc).1
    have hne : digits ≠ [] := fun heq => hfraction (by rw [heq])
    simp [matchNumber, htake, hdrop, htake', hdrop', hne]

theorem parseDurationMs_of_not_digit {c : Char} (hdigit : c.isDigit = false)
    (hspace : isJsSpace c = false) (text : List Char) (fallbackMs : Rat) :
    parseDurationMs (some (String.ofList (c :: text))) fallbackMs = fallbackMs := by
  obtain ⟨more, hmore⟩ := trim_cons hspace text
  have hwhole : (matchNumber (c :: more)).1 = [] := by
    simp only [matchNumber, List.takeWhile_cons, hdigit]
    split
    · split <;> rfl
    · rfl
  rw [parseDurationMs, Option.getD_some, hmore]
  rcases hmatch : matchNumber (c :: more) with ⟨whole, fraction, rest⟩
  rw [hmatch] at hwhole
  obtain rfl : whole = [] := hwhole
  rfl

namespace MsText

theorem fraction_ne (d : MsText) : d.fraction ≠ some [] := by
  intro heq
  have hnonempty := d.nonempty
  rw [heq] at hnonempty
  exact hnonempty rfl

theorem number_chars (d : MsText) : ∀ c ∈ d.number, c.isDigit = true ∨ c = '.' := by
  intro c hc
  unfold number at hc
  cases hfraction : d.fraction with
  | none => exact .inl (d.digits c (by simpa [hfraction] using hc))
  | some digits =>
    rw [hfraction, Option.elim_some, List.mem_append, List.mem_cons] at hc
    rcases hc with hc | rfl | hc
    · exact .inl (d.digits c (List.mem_append_left _ hc))
    · exact .inr rfl
    · exact .inl (d.digits c (List.mem_append_right _ (by rwa [hfraction])))

theorem number_quiet (d : MsText) : ∀ c ∈ d.number, isJsSpace c = false := by
  intro c hc
  rcases d.number_chars c hc with hdigit | rfl
  · exact isJsSpace_of_isDigit hdigit
  · rfl

theorem text_of_plain {d : MsText} (hplain : d.negative = false) :
    d.text = d.number ++ (List.replicate d.spaces ' ' ++ d.unit.getD []) := by
  simp [text, hplain]

theorem number_ne_nil (d : MsText) : d.number ≠ [] := by
  intro hnil
  have hnonempty := d.nonempty
  obtain ⟨hwhole, hfraction⟩ := List.append_eq_nil_iff.mp hnil
  cases hd : d.fraction with
  | none => exact hnonempty (by rw [hd]; exact hwhole)
  | some digits => rw [hd] at hfraction; cases hfraction

theorem unit_letters {d : MsText} {u : List Char} (hu : d.unit = some u) :
    u ≠ [] ∧ ∀ c ∈ u, c.isAlpha = true := by
  obtain ⟨n, hknown⟩ := d.known u hu
  exact ⟨unit_ne_nil hknown, fun c hc => isAlpha_of_unit hknown hc⟩

theorem head_rest (d : MsText) (n : Nat) :
    ∀ c ∈ (List.replicate n ' ' ++ d.unit.getD []).head?, c.isDigit = false ∧ c ≠ '.' := by
  intro c hc
  rcases List.mem_append.mp (List.mem_of_mem_head? hc) with hc | hc
  · rw [List.eq_of_mem_replicate hc]
    exact ⟨rfl, by decide⟩
  · cases hd : d.unit with
    | none => rw [hd] at hc; cases hc
    | some u => exact isDigit_of_isAlpha ((unit_letters hd).2 c (by simpa [hd] using hc))

theorem span_rest (d : MsText) (n : Nat) :
    (List.replicate n ' ' ++ d.unit.getD []).takeWhile isJsSpace = List.replicate n ' ' ∧
      (List.replicate n ' ' ++ d.unit.getD []).dropWhile isJsSpace = d.unit.getD [] := by
  have hspaces : ∀ c ∈ List.replicate n ' ', isJsSpace c = true := fun c hc => by
    rw [List.eq_of_mem_replicate hc]; rfl
  have hunit : ∀ c ∈ d.unit.getD [], isJsSpace c = false := by
    cases hd : d.unit with
    | none => simp
    | some u => exact fun c hc => isJsSpace_of_isAlpha ((unit_letters hd).2 c hc)
  rw [List.takeWhile_append_of_pos hspaces, List.dropWhile_append_of_pos hspaces,
    dropWhile_space hunit]
  refine ⟨?_, rfl⟩
  cases hd : d.unit.getD [] with
  | nil => simp
  | cons c u => simp [hunit c (by simp [hd])]

theorem trim_text {d : MsText} (hplain : d.negative = false) :
    ∃ rest, (trim (String.ofList d.text)).toList = d.number ++ rest ∧
      (∀ c ∈ rest.head?, c.isDigit = false ∧ c ≠ '.') ∧ rest.dropWhile isJsSpace =
        d.unit.getD [] := by
  have hhead : ∀ c ∈ d.number.head?, isJsSpace c = false :=
    fun c hc => d.number_quiet c (List.mem_of_mem_head? hc)
  rw [text_of_plain hplain]
  cases hunit : d.unit with
  | none =>
    refine ⟨[], ?_, by simp, rfl⟩
    rw [Option.getD_none, List.append_nil, List.append_nil]
    exact trim_append_spaces hhead (fun c hc => d.number_quiet c (List.mem_of_getLast? hc)) _
  | some u =>
    obtain ⟨hne, hletters⟩ := unit_letters hunit
    refine ⟨List.replicate d.spaces ' ' ++ u, ?_, by simpa [hunit] using d.head_rest d.spaces,
      by simpa [hunit] using (d.span_rest d.spaces).2⟩
    have htrim := trim_append_spaces (s := d.number ++ (List.replicate d.spaces ' ' ++ u)) ?_ ?_ 0
    · simpa using htrim
    · rwa [List.head?_append_of_ne_nil _ d.number_ne_nil]
    · intro c hc
      rw [← List.append_assoc, List.getLast?_append_of_ne_nil _ hne] at hc
      exact isJsSpace_of_isAlpha (hletters c (List.mem_of_getLast? hc))

/-- A number with a digit in front is read to its end; what decides is the unit. -/
theorem parseDurationMs_text {d : MsText} (hplain : d.negative = false) (hwhole : d.whole ≠ [])
    (fallbackMs : Rat) :
    parseDurationMs (some (String.ofList d.text)) fallbackMs =
      match durationUnitMs ((d.unit.getD []).map Char.toLower) with
      | some unit =>
        (digitsValue (d.whole ++ d.fraction.getD []) : Rat) /
          (10 ^ (d.fraction.getD []).length : Nat) * unit
      | none => fallbackMs := by
  obtain ⟨rest, htrim, hhead, hunit⟩ := trim_text hplain
  have hmatch : matchNumber (d.number ++ rest) = (d.whole, d.fraction.getD [], rest) :=
    matchNumber_append d.digits d.fraction_ne hhead
  simp only [parseDurationMs, Option.getD_some, htrim, hmatch, hunit]
  cases hw : d.whole with
  | nil => exact absurd hw hwhole
  | cons c whole =>
    cases durationUnitMs ((d.unit.getD []).map Char.toLower) <;> rfl

theorem text_injective {d d' : MsText} (h : d.text = d'.text) : d = d' := by
  have hsign : ∀ d : MsText, d.text.head? = some '-' ↔ d.negative = true := by
    intro d
    cases hd : d.negative with
    | true => simp [text, hd]
    | false =>
      rw [text_of_plain hd, List.head?_append_of_ne_nil _ d.number_ne_nil]
      refine ⟨fun hhead => ?_, fun h => (by cases h)⟩
      rcases d.number_chars '-' (List.mem_of_mem_head? hhead) with hdigit | hdot
      · cases hdigit
      · cases hdot
  have hnegative : d.negative = d'.negative :=
    Bool.eq_iff_iff.mpr ((hsign d).symm.trans (h ▸ hsign d'))
  have hrest : d.number ++ (List.replicate d.spaces ' ' ++ d.unit.getD []) =
      d'.number ++ (List.replicate d'.spaces ' ' ++ d'.unit.getD []) := by
    simpa [text, hnegative] using h
  have hmatch : ∀ d : MsText,
    matchNumber (d.number ++ (List.replicate d.spaces ' ' ++ d.unit.getD [])) =
      (d.whole, d.fraction.getD [], List.replicate d.spaces ' ' ++ d.unit.getD []) :=
    fun d => matchNumber_append d.digits d.fraction_ne (d.head_rest d.spaces)
  have hparts := (hmatch d).symm.trans (hrest ▸ hmatch d')
  simp only [Prod.mk.injEq] at hparts
  obtain ⟨hwhole, hfraction, hend⟩ := hparts
  have hsame : ∀ {a b : Option (List Char)}, a ≠ some [] → b ≠ some [] → a.getD [] = b.getD [] →
      a = b := by
    rintro (_ | a) (_ | b) ha hb heq
    · rfl
    · exact absurd (congrArg some heq.symm) hb
    · exact absurd (congrArg some heq) ha
    · exact congrArg some heq
  have hspaces : d.spaces = d'.spaces := by
    have htake := (d.span_rest d.spaces).1.symm.trans (hend ▸ (d'.span_rest d'.spaces).1)
    simpa using congrArg List.length htake
  have hunit : d.unit = d'.unit := by
    have hne : ∀ d : MsText, d.unit ≠ some [] := fun d hd => (unit_letters hd).1 rfl
    exact hsame (hne d) (hne d')
      ((d.span_rest d.spaces).2.symm.trans (hend ▸ (d'.span_rest d'.spaces).2))
  have hfraction := hsame d.fraction_ne d'.fraction_ne hfraction
  cases d
  cases d'
  simp only [MsText.mk.injEq]
  exact ⟨hnegative, hwhole, hfraction, hspaces, hunit⟩

end MsText

end Reading

section Units

theorem durationUnitMs_isSome {u : List Char} : (durationUnitMs u).isSome = true ↔
    u = [] ∨ u ∈ shortUnits := by
  constructor
  · intro h
    unfold durationUnitMs at h
    split at h <;> first | decide | cases h
  · rintro (rfl | h)
    · rfl
    · have hall : ∀ u ∈ shortUnits, (durationUnitMs u).isSome = true := by decide
      exact hall u h

theorem lookup_durationUnitMs {u : List Char} {n : Nat} (h : durationUnitMs u = some n)
    (hu : u ≠ []) :
    msUnits.lookup u = some n := by
  unfold durationUnitMs at h
  split at h <;> cases h <;> first | rfl | exact absurd rfl hu

end Units

namespace MsText

def Plain (d : MsText) : Prop :=
  d.negative = false ∧ d.whole ≠ [] ∧ ∀ u ∈ d.unit, u.map Char.toLower ∈ shortUnits

theorem value_of_unitMs {d : MsText} {n : Nat} (hplain : d.negative = false)
    (hunit : durationUnitMs ((d.unit.getD []).map Char.toLower) = some n) :
    d.value = (digitsValue (d.whole ++ d.fraction.getD []) : Rat) /
      (10 ^ (d.fraction.getD []).length : Nat) * n := by
  have hn : d.unitMs = n := by
    unfold unitMs
    cases hd : d.unit with
    | none =>
      rw [hd] at hunit
      cases hunit
      rfl
    | some u =>
      obtain ⟨m, hknown⟩ := d.known u hd
      rw [hd, Option.getD_some] at hunit
      have hne : u.map Char.toLower ≠ [] := by simpa using unit_ne_nil hknown
      simp only [lookup_durationUnitMs hunit hne, Option.getD_some]
  rw [value, hn, hplain, if_neg Bool.false_ne_true, one_mul]

end MsText

/-- A duration gets the length that the grammar gives it, and never the fallback, exactly when
it has no sign, a digit in front and one of the short names or none for its unit. -/
theorem parseDurationMs_eq_iff (d : MsText) :
    (∀ fallbackMs, parseDurationMs (some (String.ofList d.text)) fallbackMs = d.value) ↔
      d.Plain := by
  -- a text that falls through takes every fallback
  have hfalls :
    (∀ fallbackMs, parseDurationMs (some (String.ofList d.text)) fallbackMs = fallbackMs) →
      ¬ ∀ fallbackMs, parseDurationMs (some (String.ofList d.text)) fallbackMs = d.value := by
    intro hfall hall
    have hboth := (hfall (d.value + 1)).symm.trans (hall (d.value + 1))
    simp at hboth
  constructor
  · intro hall
    have hplain : d.negative = false := by
      by_contra hsign
      refine hfalls (fun fallbackMs => ?_) hall
      rw [MsText.text, if_pos (by simpa using hsign)]
      exact parseDurationMs_of_not_digit (by decide) (by decide) _ _
    have hwhole : d.whole ≠ [] := by
      intro hnil
      refine hfalls (fun fallbackMs => ?_) hall
      rw [MsText.text_of_plain hplain, MsText.number, hnil, List.nil_append]
      cases hd : d.fraction with
      | none => exact absurd (by rw [hd]; exact hnil) d.nonempty
      | some digits => exact parseDurationMs_of_not_digit (by decide) (by decide) _ _
    refine ⟨hplain, hwhole, fun u hu => ?_⟩
    cases hunit : durationUnitMs ((d.unit.getD []).map Char.toLower) with
    | none =>
      exact absurd hall (hfalls fun fallbackMs =>
        by rw [MsText.parseDurationMs_text hplain hwhole, hunit])
    | some n =>
      obtain ⟨m, hknown⟩ := d.known u hu
      rw [hu, Option.getD_some] at hunit
      rcases durationUnitMs_isSome.mp (by rw [hunit]; rfl) with hnil | hshort
      · exact absurd (List.map_eq_nil_iff.mp hnil) (unit_ne_nil hknown)
      · exact hshort
  · rintro ⟨hplain, hwhole, hshort⟩ fallbackMs
    have hunit : (durationUnitMs ((d.unit.getD []).map Char.toLower)).isSome = true := by
      rw [durationUnitMs_isSome]
      cases hd : d.unit with
      | none => exact .inl rfl
      | some u => exact .inr (hshort u hd)
    obtain ⟨n, hn⟩ := Option.isSome_iff_exists.mp hunit
    rw [MsText.parseDurationMs_text hplain hwhole, hn, MsText.value_of_unitMs hplain hn]

section Sample

/-- JWT_REFRESH_EXPIRES_IN="2 days" -/
def twoDays : MsText where
  negative := false
  whole := ['2']
  fraction := none
  spaces := 1
  unit := some "days".toList
  digits := List.all_eq_true.mp (by decide)
  nonempty := by decide
  known := by simp; exact ⟨24 * 60 * 60 * 1000, by decide⟩

/-- The token lives for two days, and its row for seven. -/
theorem two_days_fall_through :
    String.ofList twoDays.text = "2 days" ∧ twoDays.value = 2 * 24 * 60 * 60 * 1000 ∧
      parseDurationMs (some "2 days") (7 * 24 * 60 * 60 * 1000) = 7 * 24 * 60 * 60 * 1000 := by
  decide +kernel

end Sample

end SaasBackend
