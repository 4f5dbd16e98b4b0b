import Mathlib.Algebra.GroupWithZero.Nat
import Mathlib.Algebra.Ring.Int.Defs
import Sendplane.Data.Encoding

namespace Sendplane.Data

open List

namespace Base64

def sextets : List UInt8 → List Nat
  | a :: b :: c :: rest =>
      let group := (a.toNat * 256 + b.toNat) * 256 + c.toNat
      group / 262144 :: group / 4096 % 64 :: group / 64 % 64 :: group % 64 :: sextets rest
  | [a, b] =>
      let group := (a.toNat * 256 + b.toNat) * 4
      [group / 4096, group / 64 % 64, group % 64]
  | [a] => [a.toNat / 4, a.toNat % 4 * 16]
  | [] => []

theorem encode_eq : encode input = (sextets input).map char := by
  fun_induction sextets input with
  | case1 a b c rest group ih => rw [encode, ih]; rfl
  | case2 | case3 | case4 => rfl

theorem sextets_lt {digit : Nat} (member : digit ∈ sextets input) : digit < 64 := by
  fun_induction sextets input with
  | case1 a b c rest group ih =>
      have aBound := a.toNat_lt
      have bBound := b.toNat_lt
      have cBound := c.toNat_lt
      simp only [mem_cons] at member
      rcases member with rfl | rfl | rfl | rfl | later
      · omega
      · omega
      · omega
      · omega
      · exact ih later
  | case2 a b group =>
      have aBound := a.toNat_lt
      have bBound := b.toNat_lt
      simp only [mem_cons, not_mem_nil, or_false] at member
      omega
  | case3 a =>
      have aBound := a.toNat_lt
      simp only [mem_cons, not_mem_nil, or_false] at member
      omega
  | case4 => simp at member

theorem digit_char (bound : value < 64) : digit (char value) = some value := by
  have all : ∀ value < 64, digit (char value) = some value := by decide
  exact all value bound

theorem lineBreak_char (bound : value < 64) : lineBreak (char value) = false := by
  have all : ∀ value < 64, lineBreak (char value) = false := by decide
  exact all value bound

theorem mapM_digit {digits : List Nat} (bounds : ∀ digit ∈ digits, digit < 64) :
    ((digits.map char).filter fun char => !lineBreak char).mapM digit = some digits := by
  induction digits with
  | nil => rfl
  | cons first rest ih =>
      have bound := bounds first mem_cons_self
      have others := ih fun digit member => bounds digit (mem_cons_of_mem _ member)
      rw [map_cons, filter_cons_of_pos (by simp [lineBreak_char bound]), mapM_cons, digit_char bound, others]
      rfl

theorem bytes_sextets : bytes (sextets input) = some input := by
  fun_induction sextets input with
  | case1 a b c rest group ih =>
      have bBound := b.toNat_lt
      have cBound := c.toNat_lt
      have whole : ((group / 262144 * 64 + group / 4096 % 64) * 64 + group / 64 % 64) * 64 + group % 64 = group := by
        omega
      have high : group / 65536 = a.toNat := by omega
      have middle : group / 256 % 256 = b.toNat := by omega
      have low : group % 256 = c.toNat := by omega
      rw [bytes, ih, whole, high, middle, low]
      simp
  | case2 a b group =>
      have bBound := b.toNat_lt
      have whole : (group / 4096 * 64 + group / 64 % 64) * 64 + group % 64 = group := by omega
      have high : group / 1024 = a.toNat := by omega
      have low : group / 4 % 256 = b.toNat := by omega
      rw [bytes, whole, high, low]
      simp
  | case3 a =>
      have whole : (a.toNat / 4 * 64 + a.toNat % 4 * 16) / 16 = a.toNat := by omega
      rw [bytes, whole, UInt8.ofNat_toNat]
  | case4 => rfl

theorem decode_encode (input : List UInt8) : decode (encode input) = some input := by
  rw [decode, encode_eq, mapM_digit fun _ member => sextets_lt member, Option.bind_some, bytes_sextets]

theorem encode_ne_nil (nonempty : input ≠ []) : encode input ≠ [] := by
  intro empty
  have decoded := decode_encode input
  rw [empty] at decoded
  exact nonempty (Option.some.inj decoded).symm

end Base64

private theorem toNat_ofNat (bound : value < 256) : (UInt8.ofNat value).toNat = value := by
  rw [UInt8.toNat_ofNat', Nat.mod_eq_of_lt bound]

theorem uvarintFrom_putUvarint {index : Nat} (room : index ≤ 9) (bound : value * 128 ^ index < 2 ^ 64) :
    uvarintFrom index (putUvarint value ++ rest) = some (value, rest) := by
  induction value using Nat.strongRecOn generalizing index with
  | ind value ih =>
      rw [putUvarint]
      split
      next small =>
        have byte : (UInt8.ofNat value).toNat = value := toNat_ofNat (by omega)
        have last : ¬(index = 9 ∧ 1 < UInt8.ofNat value) := by
          rintro ⟨rfl, more⟩
          rw [UInt8.lt_iff_toNat_lt, UInt8.toNat_one] at more
          omega
        have final : UInt8.ofNat value < 128 := by
          rw [UInt8.lt_iff_toNat_lt, byte]
          exact small
        rw [singleton_append, uvarintFrom, if_neg (by omega), if_pos final, if_neg last, byte]
      next large =>
        have byte : (UInt8.ofNat (value % 128 + 128)).toNat = value % 128 + 128 := toNat_ofNat (by omega)
        have continues : ¬UInt8.ofNat (value % 128 + 128) < 128 := by
          rw [UInt8.lt_iff_toNat_lt, byte]
          simp
        have shorter : value / 128 * 128 ^ (index + 1) < 2 ^ 64 := by
          calc
            value / 128 * 128 ^ (index + 1) = value / 128 * 128 * 128 ^ index := by
              rw [pow_succ, Nat.mul_comm (128 ^ index), Nat.mul_assoc]
            _ ≤ value * 128 ^ index := Nat.mul_le_mul_right _ (Nat.div_mul_le_self value 128)
            _ < 2 ^ 64 := bound
        have more : index + 1 ≤ 9 := by
          by_contra full
          obtain rfl : index = 9 := by omega
          omega
        rw [cons_append, uvarintFrom, if_neg (by omega), if_neg continues,
          ih (value / 128) (by omega) more shorter, Option.map_some, byte]
        have whole : (value % 128 + 128) % 128 + 128 * (value / 128) = value := by omega
        simp only [whole]

theorem uvarint_putUvarint (bound : value < 2 ^ 64) : uvarint (putUvarint value ++ rest) = some (value, rest) :=
  uvarintFrom_putUvarint (by omega) (by simpa using bound)

theorem varint_putVarint {value : Int} (low : -2 ^ 63 ≤ value) (high : value < 2 ^ 63) :
    varint (putVarint value ++ rest) = some (value, rest) := by
  rw [varint, putVarint, uvarint_putUvarint (by split <;> omega), Option.map_some]
  by_cases sign : 0 ≤ value
  · have even : (2 * value).toNat % 2 = 0 := by omega
    have half : (((2 * value).toNat / 2 : Nat) : Int) = value := by omega
    simp [if_pos sign, even, half]
  · have odd : (-2 * value - 1).toNat % 2 ≠ 0 := by omega
    have half : -(((-2 * value - 1).toNat / 2 : Nat) : Int) - 1 = value := by omega
    simp only [if_neg sign, odd, if_false, half]

theorem putUvarint_append_inj (same : putUvarint left ++ first = putUvarint right ++ second) :
    left = right ∧ first = second := by
  induction left using Nat.strongRecOn generalizing right with
  | ind left ih =>
      rw [putUvarint.eq_def left, putUvarint.eq_def right] at same
      have heads {left right : Nat} {first second : List UInt8} (low : left < 256) (high : right < 256)
          (same : .ofNat left :: first = .ofNat right :: second) : left = right ∧ first = second := by
        obtain ⟨head, tail⟩ := cons_eq_cons.mp same
        have numbers := congrArg UInt8.toNat head
        rw [toNat_ofNat low, toNat_ofNat high] at numbers
        exact ⟨numbers, tail⟩
      split at same <;> split at same <;> obtain ⟨numbers, tail⟩ := heads (by omega) (by omega) same
      · exact ⟨numbers, tail⟩
      · omega
      · omega
      · obtain ⟨high, rest⟩ := ih (left / 128) (by omega) tail
        exact ⟨by omega, rest⟩

theorem putVarint_append_inj (same : putVarint left ++ first = putVarint right ++ second) :
    left = right ∧ first = second := by
  obtain ⟨numbers, rest⟩ := putUvarint_append_inj same
  refine ⟨?_, rest⟩
  split at numbers <;> split at numbers <;> omega

theorem itoa_char {char : UInt8} (member : char ∈ itoa value) : char = 45 ∨ 48 ≤ char.toNat ∧ char.toNat ≤ 57 := by
  rw [itoa] at member
  split at member
  · rcases mem_cons.mp member with sign | digit
    · exact .inl sign
    · exact .inr (decimal_digit digit)
  · exact .inr (decimal_digit member)

theorem decimal_head : decimal value ≠ 45 :: rest := by
  intro same
  have digit := decimal_digit (same ▸ mem_cons_self : (45 : UInt8) ∈ decimal value)
  exact absurd digit.1 (by decide)

theorem itoa_inj (same : itoa left = itoa right) : left = right := by
  have digits {a b : Nat} (equal : decimal a = decimal b) : a = b := by
    rw [← decimalValue_decimal a, equal, decimalValue_decimal]
  rw [itoa, itoa] at same
  split at same
  · split at same
    · have numbers := digits (tail_eq_of_cons_eq same)
      omega
    · exact absurd same.symm decimal_head
  · split at same
    · exact absurd same decimal_head
    · have numbers := digits same
      omega

def splitSign : List UInt8 → Bool × List UInt8
  | 43 :: rest => (false, rest)
  | 45 :: rest => (true, rest)
  | s => (false, s)

/-- A decimal number of at most 64 bits with an optional sign. -/
def parseInt (s : List UInt8) : Option Int :=
  let (negative, digits) := splitSign s
  if digits = [] ∨ digits.any fun char => char < 48 || 57 < char then none
  else if negative then if decimalValue digits ≤ 2 ^ 63 then some (-decimalValue digits) else none
  else if decimalValue digits < 2 ^ 63 then some (decimalValue digits) else none

theorem decimal_ne_nil : decimal value ≠ [] := by
  rw [decimal]
  split <;> simp

theorem decimal_any : ((decimal value).any fun char => char < 48 || 57 < char) = false := by
  rw [any_eq_false]
  intro char member
  have digit := decimal_digit member
  simp only [Bool.or_eq_true, decide_eq_true_eq, UInt8.lt_iff_toNat_lt, UInt8.reduceToNat]
  omega

theorem splitSign_decimal : splitSign (decimal value) = (false, decimal value) := by
  rw [splitSign.eq_def]
  split
  next rest starts =>
    have digit := decimal_digit (starts ▸ mem_cons_self : (43 : UInt8) ∈ decimal value)
    exact absurd digit.1 (by decide)
  next rest starts => exact absurd starts decimal_head
  · rfl

theorem parseInt_itoa {value : Int} (low : -2 ^ 63 ≤ value) (high : value < 2 ^ 63) :
    parseInt (itoa value) = some value := by
  have digits (n : Nat) : ¬(decimal n = [] ∨ ((decimal n).any fun char => char < 48 || 57 < char) = true) := by
    rw [decimal_any, not_or]
    exact ⟨decimal_ne_nil, Bool.false_ne_true⟩
  rw [itoa]
  split
  next negative =>
    simp only [parseInt, splitSign, digits, if_false, if_true, decimalValue_decimal]
    rw [if_pos (by omega)]
    congr 1
    omega
  next positive =>
    simp only [parseInt, splitSign_decimal, digits, if_false, Bool.false_eq_true, decimalValue_decimal]
    rw [if_pos (by omega)]
    congr 1
    omega

theorem parseInt_mem {value : Int} (parsed : parseInt s = some value) : -2 ^ 63 ≤ value ∧ value < 2 ^ 63 := by
  rw [parseInt] at parsed
  dsimp only at parsed
  split at parsed
  · cases parsed
  split at parsed
  · split at parsed
    · cases parsed
      omega
    · cases parsed
  · split at parsed
    · cases parsed
      omega
    · cases parsed

def hexValue (char : UInt8) : Option Nat :=
  if 48 ≤ char ∧ char ≤ 57 then some (char.toNat - 48)
  else if 97 ≤ char ∧ char ≤ 102 then some (char.toNat - 87)
  else if 65 ≤ char ∧ char ≤ 70 then some (char.toNat - 55)
  else none

def unhex : List UInt8 → Option (List UInt8)
  | [] => some []
  | [_] => none
  | high :: low :: rest =>
      match hexValue high, hexValue low, unhex rest with
      | some high, some low, some bytes => some (.ofNat (high * 16 + low) :: bytes)
      | _, _, _ => none

theorem hexValue_hexDigit (bound : value < 16) : hexValue (hexDigit value) = some value := by
  have all : ∀ value < 16, hexValue (hexDigit value) = some value := by decide
  exact all value bound

theorem unhex_hex : unhex (hex bytes) = some bytes := by
  induction bytes with
  | nil => rfl
  | cons byte rest ih =>
      have bound := byte.toNat_lt
      have whole : byte.toNat / 16 * 16 + byte.toNat % 16 = byte.toNat := by omega
      have unfolded : hex (byte :: rest) = hexDigit (byte.toNat / 16) :: hexDigit (byte.toNat % 16) :: hex rest := rfl
      rw [unfolded, unhex, hexValue_hexDigit (by omega), hexValue_hexDigit (by omega), ih]
      simp [whole]

theorem hex_char {char : UInt8} (member : char ∈ hex bytes) : 48 ≤ char.toNat ∧ char.toNat ≤ 102 := by
  have digits : ∀ value < 16, 48 ≤ (hexDigit value).toNat ∧ (hexDigit value).toNat ≤ 102 := by decide
  obtain ⟨byte, -, pair⟩ := mem_flatMap.mp member
  have bound := byte.toNat_lt
  simp only [mem_cons, not_mem_nil, or_false] at pair
  rcases pair with rfl | rfl
  · exact digits _ (by omega)
  · exact digits _ (by omega)

end Sendplane.Data
