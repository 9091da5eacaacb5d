import Mathlib.Algebra.Field.Rat
import Mathlib.Data.List.TakeWhile
import SaasBackend.AuthTokens
import SaasBackend.TextCodes

/-! src/utils/oauthState.js on texts, and what an attacker can put together who cannot
compute a MAC. -/

set_option autoImplicit false

namespace SaasBackend
open TextCodes

def readDigits (text : List Char) : Option Nat :=
  if text.isEmpty || !text.all Char.isDigit then none else some (Nat.ofDigitChars 10 text 0)

def readExponent : List Char → Option Int
  | [] => some 0
  | c :: rest =>
    if c == 'e' || c == 'E' then
      match rest with
      | '-' :: digits => (readDigits digits).map fun n => -(n : Int)
      | '+' :: digits => (readDigits digits).map Int.ofNat
      | digits => (readDigits digits).map Int.ofNat
    else none

/-- `12`, `1.5`, `.5` or `5.`, with an exponent or without. -/
def readDecimal (text : List Char) : Option Rat :=
  let whole := text.takeWhile Char.isDigit
  let (fraction, rest) := match text.dropWhile Char.isDigit with
    | '.' :: rest => (rest.takeWhile Char.isDigit, rest.dropWhile Char.isDigit)
    | rest => ([], rest)
  if whole.isEmpty && fraction.isEmpty then none
  else (readExponent rest).map fun (e : Int) =>
    let scale : Int := e - fraction.length
    (Nat.ofDigitChars 10 (whole ++ fraction) 0 * 10 ^ scale.toNat :
      Nat) / (10 ^ (-scale).toNat : Nat)

def digitValue (c : Char) : Nat :=
  if c.isDigit then c.toNat - '0'.toNat
  else if c.isAlpha then c.toLower.toNat - 'a'.toNat + 10
  else 36

def readRadix (base : Nat) (digits : List Char) : JsNumber :=
  if digits.isEmpty || digits.any (fun c => decide (base ≤ digitValue c)) then .nan
  else .finite (digits.foldl (fun n c => base * n + digitValue c) 0 : Nat)

def radixOf : List Char → Option Nat
  | ['0', 'x'] | ['0', 'X'] => some 16
  | ['0', 'o'] | ['0', 'O'] => some 8
  | ['0', 'b'] | ['0', 'B'] => some 2
  | _ => none

def readSigned (negative : Bool) (text : List Char) : JsNumber :=
  if text = "Infinity".toList then .infinite negative
  else
    match readDecimal text with
    | some q => .finite (if negative then -q else q)
    | none => .nan

/-- `Number(text)`, exactly: the values are not rounded to doubles. -/
def toNumber (text : String) : JsNumber :=
  match (trim text).toList with
  | [] => .finite 0
  | c :: rest =>
    match radixOf ((c :: rest).take 2) with
    | some base => readRadix base ((c :: rest).drop 2)
    | none =>
      if c = '-' then readSigned true rest
      else if c = '+' then readSigned false rest
      else readSigned false (c :: rest)

example : toNumber " -1.5e2 " = .finite (-150) ∧ toNumber "0x1F" = .finite 31 ∧
    toNumber "1e" = .nan := by
  decide +kernel

/-- HMAC-SHA256 and the two secrets. -/
structure TokenEnv where
  hmac : String → List Char → List UInt8
  jwtSecret : String
  jwtRefreshSecret : String

def STATE_TTL_MS : Nat := 10 * 60 * 1000

namespace TokenEnv

variable (env : TokenEnv)

def sign (payload : List Char) : List Char := hex (env.hmac env.jwtSecret payload)

def statePayload (nonce : Nat) (now : Time) : List Char :=
  hex (bytesOfNat 16 nonce) ++ '.' :: (toString (now + STATE_TTL_MS)).toList

def createOAuthState (nonce : Nat) (now : Time) : String :=
  let payload := statePayload nonce now
  String.ofList (payload ++ '.' :: env.sign payload)

def verifyOAuthState (state : String) (now : Time) : Bool :=
  match state.toList.splitOn '.' with
  | [nonce, expiresAtRaw, signature] =>
    let payload := nonce ++ '.' :: expiresAtRaw
    if signature ≠ env.sign payload then false
    else
      match toNumber (String.ofList expiresAtRaw) with
      | .finite expiresAt => !decide (expiresAt < now)
      | _ => false
  | _ => false

/-- The text ends in the MAC of an input, in hexadecimal or in base64url. -/
def Carries (key : String) (input : List Char) (s : String) : Prop :=
  ∃ head, s.toList = head ++ '.' :: hex (env.hmac key input) ∨
    s.toList = head ++ '.' :: base64url (env.hmac key input)

/-- What can be put together by someone who knows no MAC but those of `signed`. -/
def Buildable (signed : String → List Char → Prop) (s : String) : Prop :=
  ∀ key input, env.Carries key input s → signed key input

/-- For someone who knows no state but those with these payloads. -/
def StateBuildable (signed : List Char → Prop) (s : String) : Prop :=
  ∀ input head, s.toList = head ++ '.' :: env.sign input → signed input

end TokenEnv

section Numbers

theorem isJsSpace_of_isDigit {c : Char} (h : c.isDigit = true) : isJsSpace c = false := by
  simp only [Char.isDigit, Bool.and_eq_true, decide_eq_true_eq, ge_iff_le, UInt32.le_iff_toNat_le,
    Char.toNat_val] at h
  have h₁ : ('0' : Char).toNat = 48 := rfl
  have h₂ : ('9' : Char).toNat = 57 := rfl
  simp only [isJsSpace, Bool.or_eq_false_iff, Bool.and_eq_false_iff, beq_eq_false_iff_ne,
    decide_eq_false_iff_not]
  omega

theorem dropWhile_space {text : List Char} (h : ∀ c ∈ text, isJsSpace c = false) :
    text.dropWhile isJsSpace = text := by
  cases text with
  | nil => rfl
  | cons c text => simp [h c (by simp)]

theorem trim_cons {c : Char} (hc : isJsSpace c = false) (text : List Char) :
    ∃ more, (trim (String.ofList (c :: text))).toList = c :: more := by
  simp only [trim, String.toList_ofList, List.dropWhile_cons, hc, Bool.false_eq_true, if_false,
    List.reverse_cons, List.dropWhile_append]
  split
  · exact ⟨[], by simp⟩
  · exact ⟨_, by simp only [List.reverse_append, List.reverse_cons, List.reverse_nil,
      List.nil_append, List.cons_append]; rfl⟩

theorem trim_digits {text : List Char} (h : ∀ c ∈ text, c.isDigit = true) :
    (trim (String.ofList text)).toList = text := by
  have hspace : ∀ c ∈ text, isJsSpace c = false := fun c hc => isJsSpace_of_isDigit (h c hc)
  simp only [trim, String.toList_ofList, dropWhile_space hspace]
  rw [dropWhile_space (by simpa using hspace), List.reverse_reverse]

theorem readDecimal_digits {text : List Char} (h : ∀ c ∈ text, c.isDigit = true) (hne : text ≠ []) :
    readDecimal text = some (Nat.ofDigitChars 10 text 0 : Rat) := by
  have htake : text.takeWhile Char.isDigit = text := List.takeWhile_eq_self_iff.mpr h
  have hdrop : text.dropWhile Char.isDigit = [] := List.dropWhile_eq_nil_iff.mpr h
  simp [readDecimal, htake, hdrop, hne, readExponent]

theorem toNumber_decimal (n : Nat) : toNumber (toString n) = .finite n := by
  have hdigits : ∀ c ∈ Nat.toDigits 10 n, c.isDigit = true := fun c hc =>
    Nat.isDigit_of_mem_toDigits (by omega) (by omega) hc
  have hradix : radixOf ((Nat.toDigits 10 n).take 2) = none := by
    unfold radixOf
    split <;> first | rfl | skip
    all_goals
      rename_i htake
      have hsecond :=
        hdigits _ (List.mem_of_mem_take (i := 2) (by rw [htake]; exact .tail _ (.head _)))
      cases hsecond
  rw [Nat.toString_eq_ofList_toDigits, toNumber, trim_digits hdigits]
  cases htext : Nat.toDigits 10 n with
  | nil => exact absurd htext Nat.toDigits_ne_nil
  | cons c rest =>
    rw [htext] at hdigits hradix
    have hc := hdigits c (by simp)
    have hfinite : (c :: rest) ≠ "Infinity".toList := by
      rintro heq
      cases heq
      cases hc
    have hminus : c ≠ '-' := by rintro rfl; cases hc
    have hplus : c ≠ '+' := by rintro rfl; cases hc
    simp only [hradix, hminus, hplus, if_false, readSigned, hfinite,
      readDecimal_digits hdigits (by simp), Bool.false_eq_true]
    rw [← htext, Nat.ofDigitChars_ten_toDigits]

theorem toNumber_e (rest : List Char) : toNumber (String.ofList ('e' :: rest)) = .nan := by
  obtain ⟨more, hmore⟩ := trim_cons (by decide : isJsSpace 'e' = false) rest
  have hradix : radixOf (('e' :: more).take 2) = none := by
    unfold radixOf
    split <;> simp_all
  have hfinite : ('e' :: more) ≠ "Infinity".toList := fun heq => by cases heq
  have hdigit : Char.isDigit 'e' = false := by decide
  have hdecimal : readDecimal ('e' :: more) = none := by simp [readDecimal, hdigit]
  rw [toNumber, hmore]
  simp only [hradix, readSigned, hfinite, hdecimal, if_false, reduceCtorEq, Char.reduceEq]

end Numbers

namespace TokenEnv

variable {env : TokenEnv} {signed : String → List Char → Prop} {s : String} {now t : Time}

theorem dot_notMem_decimal (n : Nat) : '.' ∉ (toString n).toList := by
  intro h
  rw [Nat.toString_eq_ofList_toDigits, String.toList_ofList] at h
  have hdigit := Nat.isDigit_of_mem_toDigits (by omega) (by omega) h
  cases hdigit

/-- When a state is accepted: it is signed, and it states a time that has not passed. -/
theorem verifyOAuthState_iff : env.verifyOAuthState s now = true ↔
    ∃ nonce expiresAtRaw,
      s.toList = nonce ++ '.' :: (expiresAtRaw ++ '.' :: env.sign (nonce ++ '.' :: expiresAtRaw)) ∧
      '.' ∉ nonce ∧ '.' ∉ expiresAtRaw ∧
        ∃ q : Rat, toNumber (String.ofList expiresAtRaw) = .finite q ∧ (now : Rat) ≤ q := by
  unfold verifyOAuthState
  split
  · rename_i nonce expiresAtRaw signature hparts
    obtain ⟨hs, hnonce, hexpires, _⟩ := splitOn_eq_three.mp hparts
    constructor
    · intro h
      by_cases hsign : signature = env.sign (nonce ++ '.' :: expiresAtRaw)
      · cases hq : toNumber (String.ofList expiresAtRaw) with
        | finite q =>
          exact ⟨nonce, expiresAtRaw, hsign ▸ hs, hnonce, hexpires, q, hq,
            by simpa [hsign, hq] using h⟩
        | nan => simp [hq] at h
        | infinite negative => simp [hq] at h
      · simp [hsign] at h
    · rintro ⟨nonce', expiresAtRaw', hs', hnonce', hexpires', q, hq, hnow⟩
      obtain ⟨rfl, hrest⟩ := append_cons_inj hnonce hnonce' (hs.symm.trans hs')
      obtain ⟨rfl, rfl⟩ := append_cons_inj hexpires hexpires' hrest
      simp [hq, hnow]
  · rename_i hparts
    simp only [Bool.false_eq_true, false_iff]
    rintro ⟨nonce, expiresAtRaw, hs, hnonce, hexpires, _⟩
    exact hparts nonce expiresAtRaw
      _ (splitOn_eq_three.mpr ⟨hs, hnonce, hexpires, dot_notMem_hex _⟩)

theorem statePayload_append (nonce : Nat) (now : Time) (text : List Char) :
    statePayload nonce now ++ text =
    hex (bytesOfNat 16 nonce) ++ '.' :: ((toString (now + STATE_TTL_MS)).toList ++ text) := by
  rw [statePayload, List.append_assoc, List.cons_append]

theorem createOAuthState_toList (nonce : Nat) (now : Time) :
    (env.createOAuthState nonce now).toList =
    hex (bytesOfNat 16 nonce) ++ '.' :: ((toString (now + STATE_TTL_MS)).toList ++
      '.' :: env.sign (statePayload nonce now)) := by
  rw [createOAuthState, String.toList_ofList, statePayload_append]

theorem verify_createOAuthState (nonce : Nat) (now t : Time) :
    env.verifyOAuthState (env.createOAuthState nonce now) t = decide (t ≤ now + STATE_TTL_MS) := by
  rw [Bool.eq_iff_iff, verifyOAuthState_iff, decide_eq_true_iff]
  constructor
  · rintro ⟨nonce', expiresAtRaw, hs, hnonce', hexpires, q, hq, ht⟩
    rw [createOAuthState_toList] at hs
    obtain ⟨_, hrest⟩ := append_cons_inj (dot_notMem_hex _) hnonce' hs
    obtain ⟨rfl, _⟩ := append_cons_inj (dot_notMem_decimal _) hexpires hrest
    rw [String.ofList_toList, toNumber_decimal] at hq
    cases hq
    exact_mod_cast ht
  · intro ht
    refine ⟨_, _, createOAuthState_toList nonce now, dot_notMem_hex _, dot_notMem_decimal _,
      (now + STATE_TTL_MS : Nat), ?_, by exact_mod_cast ht⟩
    rw [String.ofList_toList, toNumber_decimal]

theorem Buildable.state (hs : env.Buildable signed s) :
    env.StateBuildable (signed env.jwtSecret) s :=
  fun _ head htext => hs _ _ ⟨head, .inl htext⟩

theorem verifyOAuthState_signed {signed : List Char → Prop} (hs : env.StateBuildable signed s)
    (h : env.verifyOAuthState s now = true) :
    ∃ nonce expiresAtRaw,
      s.toList = nonce ++ '.' :: (expiresAtRaw ++ '.' :: env.sign (nonce ++ '.' :: expiresAtRaw)) ∧
      '.' ∉ nonce ∧ '.' ∉ expiresAtRaw ∧ signed (nonce ++ '.' :: expiresAtRaw) ∧
        toNumber (String.ofList expiresAtRaw) ≠ .nan := by
  obtain ⟨nonce, expiresAtRaw, htext, hnonce, hexpires, q, hq, _⟩ := verifyOAuthState_iff.mp h
  refine ⟨nonce, expiresAtRaw, htext, hnonce, hexpires,
    hs _ (nonce ++ '.' :: expiresAtRaw) ?_, by simp [hq]⟩
  simpa using htext

/-- Where only one input has a MAC, a text that does not end in a dot can carry no other. -/
theorem buildable_of_one {key : String} {input : List Char}
    (hmac : ∀ key' input', ¬ (key' = key ∧ input' = input) →
    env.hmac key' input' = []) (hlast : s.toList.getLast? ≠ some '.') (hsigned : signed key input) :
    env.Buildable signed s := by
  rintro key' input' ⟨head, hends⟩
  by_cases hsame : key' = key ∧ input' = input
  · rwa [hsame.1, hsame.2]
  · rw [hmac key' input' hsame] at hends
    rcases hends with hends | hends
    · simp [hends, hex] at hlast
    · simp [hends, base64url] at hlast

theorem eq_createOAuthState {nonce : List Char} {expiresAtRaw : List Char} {n : Nat}
    (hs : s.toList = nonce ++
      '.' :: (expiresAtRaw ++ '.' :: env.sign (nonce ++ '.' :: expiresAtRaw)))
    (hpayload : nonce ++ '.' :: expiresAtRaw = statePayload n now) :
    s = env.createOAuthState n now := by
  rw [← String.toList_inj, createOAuthState, String.toList_ofList, hs, ← hpayload]
  simp

end TokenEnv

end SaasBackend
