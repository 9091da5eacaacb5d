import Mathlib.Data.List.Basic
import Mathlib.Tactic.Common
import Mathlib.Tactic.Ring

set_option autoImplicit false

namespace TextCodes

def hexByte (b : UInt8) : List Char := [Nat.digitChar (b.toNat / 16), Nat.digitChar (b.toNat % 16)]

def hex (bytes : List UInt8) : List Char := bytes.flatMap hexByte

/-- The last `k` bytes of a number, the first one first. -/
def bytesOfNat : Nat → Nat → List UInt8
  | 0, _ => []
  | k + 1, n => UInt8.ofNat (n / 256 ^ k) :: bytesOfNat k n

def alphabet : List Char :=
  "ABCDEFGHIJKLMNOPQRSTUVWXYZabcdefghijklmnopqrstuvwxyz0123456789-_".toList

def sextet (n : Nat) : Char := alphabet.getD n 'A'

/-- RFC 4648, without padding. -/
def base64url : List UInt8 → List Char
  | [] => []
  | [a] => [sextet (a.toNat / 4), sextet (a.toNat % 4 * 16)]
  | [a, b] =>
      [sextet (a.toNat / 4), sextet (a.toNat % 4 * 16 + b.toNat / 16), sextet (b.toNat % 16 * 4)]
  | a :: b :: c :: rest =>
    sextet (a.toNat / 4) :: sextet (a.toNat % 4 * 16 + b.toNat / 16) :: sextet
      (b.toNat % 16 * 4 + c.toNat / 64) ::
      sextet (c.toNat % 64) :: base64url rest

def joinSextets : List Nat → List UInt8
  | a :: b :: c :: d :: rest =>
    UInt8.ofNat (a * 4 + b / 16) :: UInt8.ofNat (b % 16 * 16 + c / 4) ::
      UInt8.ofNat (c % 4 * 64 + d) :: joinSextets rest
  | [a, b, c] => [UInt8.ofNat (a * 4 + b / 16), UInt8.ofNat (b % 16 * 16 + c / 4)]
  | [a, b] => [UInt8.ofNat (a * 4 + b / 16)]
  | _ => []

/-- Characters outside the alphabet are skipped. -/
def decodeBase64url (text : List Char) : List UInt8 := joinSextets (text.filterMap alphabet.idxOf?)

theorem idxOf_sextet {n : Nat} (h : n < 64) : alphabet.idxOf? (sextet n) = some n := by
  have hall : ∀ i : Fin 64, alphabet.idxOf? (sextet i) = some i.val := by decide +kernel
  exact hall ⟨n, h⟩

theorem byte_lt (b : UInt8) : b.toNat < 256 := b.toNat_lt_size

theorem ofNat_eq {b : UInt8} {n : Nat} (h : n = b.toNat) : UInt8.ofNat n = b := by
  rw [h, UInt8.ofNat_toNat]

theorem base64url_sextets (bytes : List UInt8) : ∀ c ∈ base64url bytes, ∃ n < 64, c = sextet n := by
  induction bytes using base64url.induct with
  | case1 => simp [base64url]
  | case2 a =>
    have ha := byte_lt a
    simp only [base64url, List.forall_mem_cons]
    exact ⟨⟨_, by omega, rfl⟩, ⟨_, by omega, rfl⟩, by simp⟩
  | case3 a b =>
    have ha := byte_lt a
    have hb := byte_lt b
    simp only [base64url, List.forall_mem_cons]
    exact ⟨⟨_, by omega, rfl⟩, ⟨_, by omega, rfl⟩, ⟨_, by omega, rfl⟩, by simp⟩
  | case4 a b c rest ih =>
    have ha := byte_lt a
    have hb := byte_lt b
    have hc := byte_lt c
    simp only [base64url, List.forall_mem_cons]
    exact ⟨⟨_, by omega, rfl⟩, ⟨_, by omega, rfl⟩, ⟨_, by omega, rfl⟩, ⟨_, by omega, rfl⟩, ih⟩

theorem notMem_base64url {c : Char} (hc : alphabet.idxOf? c = none) (bytes : List UInt8) :
    c ∉ base64url bytes := by
  intro h
  obtain ⟨n, hn, rfl⟩ := base64url_sextets bytes c h
  rw [idxOf_sextet hn] at hc
  cases hc

theorem dot_notMem_base64url (bytes : List UInt8) : '.' ∉ base64url bytes :=
  notMem_base64url (by decide +kernel) bytes

theorem decode_base64url (bytes : List UInt8) : decodeBase64url (base64url bytes) = bytes := by
  induction bytes using base64url.induct with
  | case1 => rfl
  | case2 a =>
    have ha := byte_lt a
    simp (disch := omega) only [base64url, decodeBase64url, List.filterMap_cons, idxOf_sextet,
      List.filterMap_nil, joinSextets]
    rw [ofNat_eq (b := a) (by omega)]
  | case3 a b =>
    have ha := byte_lt a
    have hb := byte_lt b
    simp (disch := omega) only [base64url, decodeBase64url, List.filterMap_cons, idxOf_sextet,
      List.filterMap_nil, joinSextets]
    rw [ofNat_eq (b := a) (by omega), ofNat_eq (b := b) (by omega)]
  | case4 a b c rest ih =>
    have ha := byte_lt a
    have hb := byte_lt b
    have hc := byte_lt c
    simp (disch := omega) only [base64url, decodeBase64url, List.filterMap_cons, idxOf_sextet,
      joinSextets]
    rw [ofNat_eq (b := a) (by omega), ofNat_eq (b := b) (by omega), ofNat_eq (b := c) (by omega)]
    exact congrArg _ (congrArg _ (congrArg _ ih))

theorem base64url_head (a : UInt8) (rest : List UInt8) :
    ∃ more, base64url (a :: rest) = sextet (a.toNat / 4) :: more := by
  rcases rest with _ | ⟨b, _ | ⟨c, rest⟩⟩ <;> exact ⟨_, rfl⟩

theorem dot_notMem_hex (bytes : List UInt8) : '.' ∉ hex bytes := by
  have hall : ∀ i : Fin 16, Nat.digitChar i ≠ '.' := by decide
  intro h
  obtain ⟨b, _, hb⟩ := List.mem_flatMap.mp h
  have hlt := byte_lt b
  simp only [hexByte, List.mem_cons, List.not_mem_nil, or_false] at hb
  rcases hb with hb | hb
  · exact hall ⟨b.toNat / 16, by omega⟩ hb.symm
  · exact hall ⟨b.toNat % 16, by omega⟩ hb.symm

def hexValue (c : Char) : Nat := "0123456789abcdef".toList.idxOf c

def readHex (text : List Char) : Nat := text.foldl (fun n c => n * 16 + hexValue c) 0

theorem hexValue_digitChar {d : Nat} (h : d < 16) : hexValue (Nat.digitChar d) = d := by
  have hall : ∀ i : Fin 16, hexValue (Nat.digitChar i) = i.val := by decide +kernel
  exact hall ⟨d, h⟩

theorem foldl_hex_bytesOfNat (k n acc : Nat) :
    (hex (bytesOfNat k n)).foldl (fun n c => n * 16 + hexValue c) acc = acc * 256 ^ k + n %
      256 ^ k := by
  induction k generalizing acc with
  | zero => simp [bytesOfNat, hex, Nat.mod_one]
  | succ k ih =>
    have hbyte : (UInt8.ofNat (n / 256 ^ k)).toNat = n / 256 ^ k % 256 := UInt8.toNat_ofNat'
    have hlt : n / 256 ^ k % 256 < 256 := Nat.mod_lt _ (by decide)
    have hdigits : (acc * 16 + n / 256 ^ k % 256 / 16) * 16 + n / 256 ^ k % 256 % 16 =
        acc * 256 + n / 256 ^ k % 256 := by
      omega
    simp only [hex, bytesOfNat, List.flatMap_cons, hexByte, hbyte, List.cons_append,
      List.nil_append, List.foldl_cons] at ih ⊢
    rw [hexValue_digitChar (by omega), hexValue_digitChar (by omega), hdigits, ih, Nat.pow_succ,
      Nat.mod_mul]
    ring

theorem readHex_bytesOfNat {k n : Nat} (h : n < 256 ^ k) : readHex (hex (bytesOfNat k n)) = n := by
  rw [readHex, foldl_hex_bytesOfNat, Nat.mod_eq_of_lt h, Nat.zero_mul, Nat.zero_add]

theorem idxOf_digitChar {n : Nat} (h : n < 16) :
    ∃ v, alphabet.idxOf? (Nat.digitChar n) = some v ∧ ((26 ≤ v ∧ v ≤ 31) ∨ (52 ≤ v ∧ v ≤ 61)) := by
  have hall : ∀ i : Fin 16, alphabet.idxOf? (Nat.digitChar i) =
      some (if i.val < 10 then 52 + i.val else 16 + i.val) := by
    decide +kernel
  refine ⟨_, hall ⟨n, h⟩, ?_⟩
  split <;> omega

section Parts

variable {α : Type} [BEq α] [LawfulBEq α] {a : α} {s : List α}

theorem notMem_of_mem_splitOn {part : List α} (h : part ∈ s.splitOn a) : a ∉ part := by
  induction s generalizing part with
  | nil => simp_all
  | cons b s ih =>
    rw [List.splitOn_cons_eq_if_modifyHead] at h
    split at h
    · rcases List.mem_cons.mp h with rfl | h
      · simp
      · exact ih h
    · rename_i hne
      cases hparts : s.splitOn a with
      | nil => simp [hparts] at h
      | cons first parts =>
        simp only [hparts, List.modifyHead_cons, List.mem_cons] at h ih
        rcases h with rfl | h
        · simp only [List.mem_cons, not_or]
          exact ⟨fun heq => hne (by simp [heq]), ih (.inl rfl)⟩
        · exact ih (.inr h)

theorem splitOn_eq_three {p q r : List α} :
    s.splitOn a = [p, q, r] ↔ s = p ++ a :: (q ++ a :: r) ∧ a ∉ p ∧ a ∉ q ∧ a ∉ r := by
  constructor
  · intro h
    have hs : [a].intercalate (s.splitOn a) = s := List.intercalate_splitOn a
    have hparts : ∀ part ∈ [p, q, r], a ∉ part :=
      fun part hpart => notMem_of_mem_splitOn (h ▸ hpart)
    rw [h] at hs
    simp only [List.forall_mem_cons] at hparts
    exact ⟨by simpa [List.intercalate] using hs.symm, hparts.1, hparts.2.1, hparts.2.2.1⟩
  · rintro ⟨rfl, hp, hq, hr⟩
    rw [List.splitOn_append_cons_self_of_not_mem hp, List.splitOn_append_cons_self_of_not_mem hq,
      List.splitOn_eq_singleton hr]

end Parts

theorem append_cons_inj {β : Type} {a : β} {p p' q q' : List β} (hp : a ∉ p) (hp' : a ∉ p')
    (h : p ++ a :: q = p' ++ a :: q') :
    p = p' ∧ q = q' := by
  induction p generalizing p' with
  | nil =>
    cases p' with
    | nil => simpa using h
    | cons b p' =>
      simp only [List.nil_append, List.cons_append, List.cons.injEq] at h
      exact absurd (by simp [h.1]) hp'
  | cons b p ih =>
    cases p' with
    | nil =>
      simp only [List.nil_append, List.cons_append, List.cons.injEq] at h
      exact absurd (by simp [h.1]) hp
    | cons b' p' =>
      simp only [List.cons_append, List.cons.injEq, List.mem_cons, not_or] at h hp hp'
      obtain ⟨rfl, rfl⟩ := ih hp.2 hp'.2 h.2
      exact ⟨by rw [h.1], rfl⟩

end TextCodes
