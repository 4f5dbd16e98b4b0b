import Mathlib.Data.List.Basic

namespace Sendplane.Data

open List

/-! # Strings as UTF-8 bytes

The string functions that the modelled code takes from its standard library.
What depends on the Unicode tables is a parameter; on ASCII input nothing does.
-/

namespace Strings

abbrev Bytes := List UInt8

def containsAny (s chars : Bytes) : Bool :=
  s.any chars.contains

def spaces : List Bytes :=
  [[9], [10], [11], [12], [13], [32], [0xC2, 0x85], [0xC2, 0xA0], [0xE1, 0x9A, 0x80],
    [0xE2, 0x80, 0x80], [0xE2, 0x80, 0x81], [0xE2, 0x80, 0x82], [0xE2, 0x80, 0x83], [0xE2, 0x80, 0x84],
    [0xE2, 0x80, 0x85], [0xE2, 0x80, 0x86], [0xE2, 0x80, 0x87], [0xE2, 0x80, 0x88], [0xE2, 0x80, 0x89],
    [0xE2, 0x80, 0x8A], [0xE2, 0x80, 0xA8], [0xE2, 0x80, 0xA9], [0xE2, 0x80, 0xAF], [0xE2, 0x81, 0x9F],
    [0xE3, 0x80, 0x80]]

/-- Drops leading occurrences of the patterns, at most `fuel` of them. -/
def strip (patterns : List Bytes) : Nat → Bytes → Bytes
  | 0, s => s
  | fuel + 1, s =>
      match patterns.find? (·.isPrefixOf s) with
      | none => s
      | some pattern => strip patterns fuel (s.drop pattern.length)

def trimSpace (s : Bytes) : Bytes :=
  let left := strip spaces s.length s
  (strip (spaces.map List.reverse) left.length left.reverse).reverse

def lowerByte (char : UInt8) : UInt8 :=
  if 65 ≤ char ∧ char ≤ 90 then char + 32 else char

def isASCII (s : Bytes) : Bool :=
  s.all (· < 128)

structure Unicode where
  lower : Bytes → Bytes
  lower_control : ∀ s char, char < 32 → char ∈ lower s → char ∈ s
  quote : Bytes → Bytes

def Unicode.toLower (tables : Unicode) (s : Bytes) : Bytes :=
  if isASCII s then s.map lowerByte else tables.lower s

def trimRight (s : Bytes) (char : UInt8) : Bytes :=
  (s.reverse.dropWhile (· = char)).reverse

def contains (s pattern : Bytes) : Bool :=
  s.tails.any pattern.isPrefixOf

/-- The bytes that may stand as they are in a segment of a URL path. -/
def plainInPath (char : UInt8) : Bool :=
  (48 ≤ char && char ≤ 57) || (65 ≤ char && char ≤ 90) || (97 ≤ char && char ≤ 122) ||
    [45, 95, 46, 126, 36, 38, 43, 58, 61, 64].contains char

def upperHex (value : Nat) : UInt8 :=
  if value < 10 then .ofNat (48 + value) else .ofNat (55 + value)

def pathEscape (s : Bytes) : Bytes :=
  s.flatMap fun char =>
    if plainInPath char then [char] else [37, upperHex (char.toNat / 16), upperHex (char.toNat % 16)]

def lowerHex (value : Nat) : UInt8 :=
  if value < 10 then .ofNat (48 + value) else .ofNat (87 + value)

/-- The %q form of ASCII text.  Other bytes are escaped one by one, also those
of printable characters. -/
def quote (s : Bytes) : Bytes :=
  let escape (char : UInt8) : Bytes :=
    match [(7, 97), (8, 98), (12, 102), (10, 110), (13, 114), (9, 116), (11, 118), (92, 92), (34, 34)].lookup char with
    | some letter => [92, letter]
    | none =>
        if 32 ≤ char ∧ char < 127 then [char]
        else [92, 120, lowerHex (char.toNat / 16), lowerHex (char.toNat % 16)]
  34 :: s.flatMap escape ++ [34]

def lineBreaks : Bytes := [13, 10]

def HasLineBreak (s : Bytes) : Prop :=
  containsAny s lineBreaks = true

instance (s : Bytes) : Decidable (HasLineBreak s) :=
  inferInstanceAs (Decidable (_ = true))

variable {s : Bytes}

theorem hasLineBreak_iff : HasLineBreak s ↔ 13 ∈ s ∨ 10 ∈ s := by
  simp [HasLineBreak, containsAny, lineBreaks, and_or_left, exists_or]

theorem hasLineBreak_append : HasLineBreak (first ++ second) ↔ HasLineBreak first ∨ HasLineBreak second := by
  simp [HasLineBreak, containsAny]

theorem pathEscape_unbroken (s : Bytes) : ¬HasLineBreak (pathEscape s) := by
  have escaped : ∀ value < 256, ¬HasLineBreak (pathEscape [UInt8.ofNat value]) := by decide +kernel
  induction s with
  | nil => decide
  | cons char rest ih =>
      have whole : pathEscape (char :: rest) = pathEscape [UInt8.ofNat char.toNat] ++ pathEscape rest := by
        simp [pathEscape]
      rw [whole, hasLineBreak_append, not_or]
      exact ⟨escaped _ char.toNat_lt, ih⟩

theorem hasLineBreak_of_subset (subset : part ⊆ whole) (broken : HasLineBreak part) : HasLineBreak whole := by
  rw [hasLineBreak_iff] at broken ⊢
  exact broken.imp (subset ·) (subset ·)

variable {char : UInt8}

theorem lowerByte_control (control : lowerByte char < 32) : lowerByte char = char := by
  by_cases upper : 65 ≤ char ∧ char ≤ 90
  · obtain ⟨low, high⟩ := upper
    simp only [lowerByte, low, high, and_self, ↓reduceIte] at control
    simp only [UInt8.le_iff_toNat_le, UInt8.lt_iff_toNat_lt, UInt8.toNat_add, UInt8.reduceToNat] at low high control
    omega
  · rw [lowerByte, if_neg upper]

/-- Lowering adds no control character, so it adds no line break. -/
theorem Unicode.toLower_control (tables : Unicode) (control : char < 32) (mem : char ∈ tables.toLower s) :
    char ∈ s := by
  unfold toLower at mem
  split at mem
  · obtain ⟨original, inside, rfl⟩ := mem_map.mp mem
    rwa [lowerByte_control control]
  · exact tables.lower_control s char control mem

theorem Unicode.toLower_lineBreak (tables : Unicode) (broken : HasLineBreak (tables.toLower s)) : HasLineBreak s := by
  rw [hasLineBreak_iff] at broken ⊢
  exact broken.imp (tables.toLower_control (by decide)) (tables.toLower_control (by decide))

/-- Neither white space nor the first or last byte of a longer encoding. -/
def visible (char : UInt8) : Bool :=
  32 < char && char < 128

theorem strip_of_visible (marked : ∀ pattern ∈ patterns, ∃ char, pattern.head? = some char ∧ visible char = false)
    (plain : ∀ char ∈ s.head?, visible char = true) : strip patterns fuel s = s := by
  cases fuel with
  | zero => rfl
  | succ fuel =>
      have unmatched : patterns.find? (·.isPrefixOf s) = none := by
        rw [find?_eq_none]
        intro pattern mem starts
        obtain ⟨char, first, hidden⟩ := marked pattern mem
        obtain ⟨rest, rfl⟩ := isPrefixOf_iff_prefix.mp starts
        have shown := plain char (by simp [first])
        simp [hidden] at shown
      rw [strip, unmatched]

theorem trimSpace_of_ends (starts : ∀ char ∈ s.head?, visible char = true)
    (ends : ∀ char ∈ s.getLast?, visible char = true) : trimSpace s = s := by
  have left : strip spaces s.length s = s := strip_of_visible (by decide) starts
  have right : strip (spaces.map reverse) s.length s.reverse = s.reverse :=
    strip_of_visible (by decide) (by rwa [head?_reverse])
  simp [trimSpace, left, right]

theorem trimSpace_of_visible (plain : ∀ char ∈ s, visible char = true) : trimSpace s = s :=
  trimSpace_of_ends (fun char first => plain char (mem_of_mem_head? first))
    fun char last => plain char (mem_of_mem_getLast? last)

def Trimmed (s : Bytes) : Prop :=
  (∀ pattern ∈ spaces, ¬pattern <+: s) ∧ ∀ pattern ∈ spaces, ¬pattern <:+ s

theorem strip_of_clean (clean : ∀ pattern ∈ patterns, ¬pattern <+: s) : strip patterns fuel s = s := by
  cases fuel with
  | zero => rfl
  | succ fuel =>
      have unmatched : patterns.find? (·.isPrefixOf s) = none := by
        rw [find?_eq_none]
        intro pattern mem starts
        exact clean pattern mem <| isPrefixOf_iff_prefix.mp starts
      rw [strip, unmatched]

theorem strip_suffix (patterns : List Bytes) (fuel : Nat) (s : Bytes) : strip patterns fuel s <:+ s := by
  induction fuel generalizing s with
  | zero => exact suffix_refl s
  | succ fuel ih =>
      rw [strip]
      split
      · exact suffix_refl s
      · exact (ih _).trans (drop_suffix _ s)

theorem strip_clean (patterns : List Bytes) (nonempty : ∀ pattern ∈ patterns, pattern ≠ [])
    (enough : s.length ≤ fuel) : ∀ pattern ∈ patterns, ¬pattern <+: strip patterns fuel s := by
  induction fuel generalizing s with
  | zero =>
      obtain rfl : s = [] := eq_nil_of_length_eq_zero (by omega)
      exact fun pattern mem starts => nonempty pattern mem (prefix_nil.mp starts)
  | succ fuel ih =>
      rw [strip]
      split
      next unmatched =>
        intro pattern mem starts
        exact find?_eq_none.mp unmatched pattern mem <| isPrefixOf_iff_prefix.mpr starts
      next pattern found =>
        have long := length_pos_iff.mpr (nonempty pattern (mem_of_find?_eq_some found))
        exact ih (by rw [length_drop]; omega)

theorem trimmed_trimSpace (s : Bytes) : Trimmed (trimSpace s) := by
  have left := strip_clean spaces (by decide) (Nat.le_refl s.length)
  have length : (strip spaces s.length s).reverse.length ≤ (strip spaces s.length s).length :=
    Nat.le_of_eq length_reverse
  have right := strip_clean (spaces.map reverse) (by decide) length
  constructor
  · intro pattern mem starts
    refine left pattern mem (starts.trans ?_)
    have kept := strip_suffix (spaces.map reverse) (strip spaces s.length s).length
      (strip spaces s.length s).reverse
    rwa [← reverse_prefix, reverse_reverse] at kept
  · intro pattern mem ends
    rw [← reverse_prefix, trimSpace, reverse_reverse] at ends
    exact right pattern.reverse (mem_map_of_mem mem) ends

theorem trimSpace_of_trimmed (trimmed : Trimmed s) : trimSpace s = s := by
  have left : strip spaces s.length s = s := strip_of_clean trimmed.1
  have right : strip (spaces.map reverse) s.length s.reverse = s.reverse := by
    refine strip_of_clean (fun pattern mem starts => ?_)
    obtain ⟨original, there, rfl⟩ := mem_map.mp mem
    exact trimmed.2 original there <| reverse_prefix.mp starts
  simp [trimSpace, left, right]

theorem trimSpace_space : trimSpace (32 :: s) = trimSpace s := by
  have first : strip spaces (32 :: s).length (32 :: s) = strip spaces s.length s := rfl
  simp only [trimSpace, first]

theorem length_trimSpace_le (s : Bytes) : (trimSpace s).length ≤ s.length := by
  have left := (strip_suffix spaces s.length s).length_le
  have right := (strip_suffix (spaces.map reverse) (strip spaces s.length s).length
    (strip spaces s.length s).reverse).length_le
  rw [length_reverse] at right
  rw [trimSpace, length_reverse]
  omega

theorem strip_drops (s : Bytes) :
    ∃ front, s = front ++ strip patterns fuel s ∧ ∀ char ∈ front, ∃ pattern ∈ patterns, char ∈ pattern := by
  induction fuel generalizing s with
  | zero => exact ⟨[], rfl, nofun⟩
  | succ fuel ih =>
      rw [strip]
      split
      · exact ⟨[], rfl, nofun⟩
      next pattern found =>
        obtain ⟨front, same, dropped⟩ := ih (s.drop pattern.length)
        have matched : pattern.isPrefixOf s = true := by simpa using find?_some found
        have starts := isPrefixOf_iff_prefix.mp matched
        refine ⟨pattern ++ front, ?_, fun char listed => ?_⟩
        · rw [append_assoc, ← same]
          exact (prefix_iff_eq_append.mp starts).symm
        · obtain here | later := mem_append.mp listed
          · exact ⟨pattern, mem_of_find?_eq_some found, here⟩
          · exact dropped char later

theorem trimSpace_drops (s : Bytes) : ∃ front back, s = front ++ trimSpace s ++ back ∧
    ∀ char ∈ front, ∃ pattern ∈ spaces, char ∈ pattern := by
  obtain ⟨front, left, dropped⟩ := strip_drops s
  obtain ⟨back, right, -⟩ := strip_drops
    (strip spaces s.length s).reverse
  refine ⟨front, back.reverse, ?_, dropped⟩
  rw [append_assoc, trimSpace, ← reverse_append, ← right, reverse_reverse]
  exact left

/-- White space of several bytes has no byte of ASCII. -/
theorem space_bytes (mem : pattern ∈ spaces) : pattern.length = 1 ∨ ∀ char ∈ pattern, 128 ≤ char := by
  revert pattern
  decide +kernel

/-- White space does not reach over a byte of ASCII. -/
theorem prefix_of_append (mem : pattern ∈ spaces) (ascii : char < 128) (nonempty : a ≠ [])
    (starts : pattern <+: a ++ char :: b) : pattern <+: a := by
  have length := length_pos_iff.mpr nonempty
  obtain single | high := space_bytes mem
  · exact prefix_of_prefix_length_le starts (prefix_append a _) (by omega)
  · by_cases short : pattern.length ≤ a.length
    · exact prefix_of_prefix_length_le starts (prefix_append a _) short
    · have longer : a ++ [char] <+: pattern := by
        refine prefix_of_prefix_length_le ⟨b, by simp⟩ starts ?_
        rw [length_append, length_singleton]
        omega
      have listed := high char (longer.subset (by simp))
      exact absurd listed (UInt8.not_le.mpr ascii)

theorem suffix_of_append (mem : pattern ∈ spaces) (ascii : char < 128) (nonempty : b ≠ [])
    (ends : pattern <:+ a ++ char :: b) : pattern <:+ b := by
  have length := length_pos_iff.mpr nonempty
  have tail : b <:+ a ++ char :: b := ⟨a ++ [char], by simp⟩
  obtain single | high := space_bytes mem
  · exact suffix_of_suffix_length_le ends tail (by omega)
  · by_cases short : pattern.length ≤ b.length
    · exact suffix_of_suffix_length_le ends tail short
    · have longer : char :: b <:+ pattern := by
        refine suffix_of_suffix_length_le (suffix_append a _) ends ?_
        rw [length_cons]
        omega
      have listed := high char (longer.subset mem_cons_self)
      exact absurd listed (UInt8.not_le.mpr ascii)

end Strings

end Sendplane.Data
