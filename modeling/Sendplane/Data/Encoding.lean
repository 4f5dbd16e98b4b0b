import Mathlib.Data.List.Basic

namespace Sendplane.Data

open List

namespace Base64

def digit (char : UInt8) : Option Nat :=
  if 65 ≤ char ∧ char ≤ 90 then some (char.toNat - 65)
  else if 97 ≤ char ∧ char ≤ 122 then some (char.toNat - 97 + 26)
  else if 48 ≤ char ∧ char ≤ 57 then some (char.toNat - 48 + 52)
  else if char = 45 then some 62
  else if char = 95 then some 63
  else none

def lineBreak (char : UInt8) : Bool :=
  char = 10 || char = 13

/-- Four digits hold three bytes; two or three left over hold one or two, and
one alone holds nothing. -/
def bytes : List Nat → Option (List UInt8)
  | a :: b :: c :: d :: rest =>
      let group := ((a * 64 + b) * 64 + c) * 64 + d
      (bytes rest).map fun later =>
        .ofNat (group / 65536) :: .ofNat (group / 256 % 256) :: .ofNat (group % 256) :: later
  | [a, b, c] =>
      let group := (a * 64 + b) * 64 + c
      some [.ofNat (group / 1024), .ofNat (group / 4 % 256)]
  | [a, b] => some [.ofNat ((a * 64 + b) / 16)]
  | [_] => none
  | [] => some []

def decode (encoded : List UInt8) : Option (List UInt8) :=
  ((encoded.filter fun char => !lineBreak char).mapM digit).bind bytes

def char (digit : Nat) : UInt8 :=
  if digit < 26 then .ofNat (65 + digit)
  else if digit < 52 then .ofNat (71 + digit)
  else if digit < 62 then .ofNat (digit - 4)
  else if digit = 62 then 45
  else 95

def encode : List UInt8 → List UInt8
  | a :: b :: c :: rest =>
      let group := (a.toNat * 256 + b.toNat) * 256 + c.toNat
      char (group / 262144) :: char (group / 4096 % 64) :: char (group / 64 % 64) :: char (group % 64) :: encode rest
  | [a, b] =>
      let group := (a.toNat * 256 + b.toNat) * 4
      [char (group / 4096), char (group / 64 % 64), char (group % 64)]
  | [a] => [char (a.toNat / 4), char (a.toNat % 4 * 16)]
  | [] => []

end Base64

/-- Seven bits a byte, low bits first; all but the last byte have the high bit. -/
def putUvarint (value : Nat) : List UInt8 :=
  if value < 128 then [.ofNat value]
  else .ofNat (value % 128 + 128) :: putUvarint (value / 128)

def putVarint (value : Int) : List UInt8 :=
  putUvarint (if 0 ≤ value then (2 * value).toNat else (-2 * value - 1).toNat)

/-- At most ten bytes, of which the tenth can only add one bit. -/
def uvarintFrom : Nat → List UInt8 → Option (Nat × List UInt8)
  | _, [] => none
  | index, byte :: rest =>
      if index = 10 then none
      else if byte < 128 then
        if index = 9 ∧ 1 < byte then none else some (byte.toNat, rest)
      else (uvarintFrom (index + 1) rest).map fun (high, rest) => (byte.toNat % 128 + 128 * high, rest)

def uvarint (bytes : List UInt8) : Option (Nat × List UInt8) :=
  uvarintFrom 0 bytes

def varint (bytes : List UInt8) : Option (Int × List UInt8) :=
  (uvarint bytes).map fun (value, rest) =>
    (if value % 2 = 0 then (value / 2 : Nat) else -(value / 2 : Nat) - 1, rest)

def decimal (value : Nat) : List UInt8 :=
  if value < 10 then [.ofNat (48 + value)] else decimal (value / 10) ++ [.ofNat (48 + value % 10)]

def decimalValue (digits : List UInt8) : Nat :=
  digits.foldl (fun value digit => value * 10 + (digit.toNat - 48)) 0

theorem decimalValue_decimal (value : Nat) : decimalValue (decimal value) = value := by
  induction value using Nat.strongRecOn with
  | ind value ih =>
      have digit : ∀ small < 10, (UInt8.ofNat (48 + small)).toNat - 48 = small := by decide
      rw [decimal]
      split
      · rename_i small
        simp only [decimalValue, foldl_cons, foldl_nil, Nat.zero_mul, Nat.zero_add, digit value small]
      · have shorter := ih (value / 10) (by omega)
        rw [decimalValue] at shorter
        rw [decimalValue, foldl_append, foldl_cons, foldl_nil, digit (value % 10) (by omega)]
        omega

theorem decimal_digit {value : Nat} {char : UInt8} (member : char ∈ decimal value) :
    48 ≤ char.toNat ∧ char.toNat ≤ 57 := by
  induction value using Nat.strongRecOn with
  | ind value ih =>
      have digit : ∀ small < 10, 48 ≤ (UInt8.ofNat (48 + small)).toNat ∧
          (UInt8.ofNat (48 + small)).toNat ≤ 57 := by decide
      rw [decimal] at member
      split at member
      · rename_i small
        rw [mem_singleton] at member
        exact member ▸ digit value small
      · rcases mem_append.mp member with before | last
        · exact ih (value / 10) (by omega) before
        · rw [mem_singleton] at last
          exact last ▸ digit (value % 10) (by omega)

/-- The first separator is where it is. -/
theorem append_sep_inj {α : Type} {sep : α} {left right first second : List α} (leftFree : sep ∉ left)
    (rightFree : sep ∉ right) (same : left ++ sep :: first = right ++ sep :: second) :
    left = right ∧ first = second := by
  induction left generalizing right with
  | nil =>
      cases right with
      | nil => exact ⟨rfl, tail_eq_of_cons_eq same⟩
      | cons head tail => exact absurd (mem_cons.mpr (.inl (head_eq_of_cons_eq same))) rightFree
  | cons head tail ih =>
      cases right with
      | nil => exact absurd (mem_cons.mpr (.inl (head_eq_of_cons_eq same).symm)) leftFree
      | cons head' tail' =>
          obtain ⟨rfl, rest⟩ := cons_eq_cons.mp same
          rw [mem_cons, not_or] at leftFree rightFree
          obtain ⟨rfl, rfl⟩ := ih leftFree.2 rightFree.2 rest
          exact ⟨rfl, rfl⟩

theorem append_sep_inj_last {α : Type} {sep : α} {left right first second : List α} (firstFree : sep ∉ first)
    (secondFree : sep ∉ second) (same : left ++ sep :: first = right ++ sep :: second) :
    left = right ∧ first = second := by
  have reversed : first.reverse ++ sep :: left.reverse = second.reverse ++ sep :: right.reverse := by
    simpa using congrArg reverse same
  obtain ⟨firsts, lefts⟩ := append_sep_inj (by simpa using firstFree) (by simpa using secondFree) reversed
  exact ⟨reverse_injective lefts, reverse_injective firsts⟩

/-- A number that is followed by a separator can be told from what follows. -/
theorem decimal_inj {left right : Nat} {sep : UInt8} (nonDigit : 57 < sep.toNat)
    (same : decimal left ++ sep :: first = decimal right ++ sep :: second) : left = right ∧ first = second := by
  have absent : ∀ value, sep ∉ decimal value := by
    intro value member
    have digit := decimal_digit member
    omega
  obtain ⟨digits, rest⟩ := append_sep_inj (absent left) (absent right) same
  refine ⟨?_, rest⟩
  rw [← decimalValue_decimal left, digits, decimalValue_decimal]

def hexDigit (value : Nat) : UInt8 :=
  if value < 10 then .ofNat (48 + value) else .ofNat (87 + value)

def hex (bytes : List UInt8) : List UInt8 :=
  bytes.flatMap fun byte => [hexDigit (byte.toNat / 16), hexDigit (byte.toNat % 16)]

def itoa (value : Int) : List UInt8 :=
  if value < 0 then 45 :: decimal value.natAbs else decimal value.natAbs

theorem forall_mem_hex {p : UInt8 → Prop} (digits : ∀ value < 16, p (hexDigit value))
    (bytes : List UInt8) : ∀ char ∈ hex bytes, p char := by
  intro char member
  obtain ⟨byte, -, digit⟩ := mem_flatMap.mp member
  have bound := byte.toNat_lt
  rcases mem_pair.mp digit with rfl | rfl
  · exact digits _ (by omega)
  · exact digits _ (by omega)

theorem length_hex : (hex bytes).length = 2 * bytes.length := by
  simp [hex, length_flatMap, Nat.mul_comm]

theorem hexDigit_inj (leftBound : left < 16) (rightBound : right < 16) (same : hexDigit left = hexDigit right) :
    left = right := by
  have digits : ∀ left < 16, ∀ right < 16, hexDigit left = hexDigit right → left = right := by decide
  exact digits left leftBound right rightBound same

theorem hex_inj (same : hex left = hex right) : left = right := by
  induction left generalizing right with
  | nil =>
      cases right with
      | nil => rfl
      | cons byte rest => simp [hex] at same
  | cons byte rest ih =>
      cases right with
      | nil => simp [hex] at same
      | cons byte' rest' =>
          simp only [hex, flatMap_cons, cons_append, cons.injEq] at same
          obtain ⟨high, low, rest⟩ := same
          have sameHigh := hexDigit_inj (by have := byte.toNat_lt; omega) (by have := byte'.toNat_lt; omega) high
          have sameLow := hexDigit_inj (by omega) (by omega) low
          have sameByte : byte = byte' := UInt8.toNat_inj.mp (by omega)
          rw [sameByte, ih rest]

namespace Uuid

def render (bytes : List UInt8) : List UInt8 :=
  hex (bytes.take 4) ++ 45 :: hex ((bytes.drop 4).take 2) ++ 45 :: hex ((bytes.drop 6).take 2) ++
    45 :: hex ((bytes.drop 8).take 2) ++ 45 :: hex ((bytes.drop 10).take 6)

/-- The version goes into the high bits of byte 6, the variant into those of byte 8. -/
def stamp (version : Nat) (bytes : List UInt8) : List UInt8 :=
  (bytes.modify 6 fun byte => .ofNat (version * 16 + byte.toNat % 16)).modify 8
    fun byte => .ofNat (128 + byte.toNat % 64)

/-- A name-based identifier: the first 16 bytes of the hash of space and name. -/
def ofHash (version : Nat) (hash : List UInt8) : List UInt8 :=
  render (stamp version (hash.take 16))

theorem render_ne_nil : render bytes ≠ [] := by
  simp [render]

theorem ofHash_ne_nil (hash : List UInt8) : ofHash version hash ≠ [] :=
  render_ne_nil

end Uuid

end Sendplane.Data
