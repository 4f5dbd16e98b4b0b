import Sendplane.Data.Strings

namespace Sendplane.Data.Strings

open List String

abbrev ValidUTF8 (s : Bytes) : Prop :=
  (ByteArray.mk s.toArray).IsValidUTF8

/-- The text ends at the limit or before, or the byte behind starts a character. -/
def CutsWhole (limit : Nat) (s : Bytes) : Prop :=
  ∀ char ∈ s[limit]?, char.IsUTF8FirstByte

theorem extract_mk (s : Bytes) (start stop : Nat) :
    (ByteArray.mk s.toArray).extract start stop = ByteArray.mk ((s.take stop).drop start).toArray := by
  ext1
  simp [drop_take]

theorem ValidUTF8.take_iff (valid : ValidUTF8 s) (limit : Nat) : ValidUTF8 (s.take limit) ↔ CutsWhole limit s := by
  by_cases inside : limit < s.length
  · have start := Pos.Raw.isValid_iff_isUTF8FirstByte (s := ⟨_, valid⟩) (p := ⟨limit⟩)
    have size : limit < (ByteArray.mk s.toArray).size := inside
    simp only [Pos.Raw.isValid_iff_isValidUTF8_extract_zero, Pos.Raw.le_iff, Pos.Raw.lt_iff, Pos.Raw.ext_iff,
      byteIdx_rawEndPos, utf8ByteSize, size, Nat.le_of_lt size, Nat.ne_of_lt size, true_and, false_or, exists_true_left,
      extract_mk, drop_zero] at start
    rw [ValidUTF8, start, CutsWhole, getElem?_eq_getElem inside]
    exact ⟨fun first char same => Option.some.inj same ▸ first, fun first => first _ rfl⟩
  · rw [take_of_length_le (by omega), CutsWhole, getElem?_eq_none (by omega)]
    exact iff_of_true valid nofun

theorem ValidUTF8.parts_iff (valid : ValidUTF8 (s ++ t)) : ValidUTF8 s ↔ ValidUTF8 t := by
  have cut := Pos.Raw.isValid_iff_isValidUTF8_extract_zero (s := ⟨_, valid⟩) (p := ⟨s.length⟩)
  have size : (ByteArray.mk (s ++ t).toArray).size = (s ++ t).length := rfl
  simpa [Pos.Raw.isValid_iff_isValidUTF8_extract_utf8ByteSize, Pos.Raw.le_iff, extract_mk, utf8ByteSize, size,
    take_append, iff_comm] using cut

theorem ValidUTF8.append (front : ValidUTF8 s) (back : ValidUTF8 t) : ValidUTF8 (s ++ t) := by
  have joined : ByteArray.mk (s ++ t).toArray = ByteArray.mk s.toArray ++ ByteArray.mk t.toArray := by
    ext1
    simp
  rw [ValidUTF8, joined]
  exact ByteArray.IsValidUTF8.append front back

theorem strip_keeps {P : Bytes → Prop} (drops : ∀ pattern ∈ patterns, ∀ rest, P (pattern ++ rest) → P rest)
    (holds : P s) : P (strip patterns fuel s) := by
  induction fuel generalizing s with
  | zero => exact holds
  | succ fuel ih =>
      rw [strip]
      split
      · exact holds
      next pattern found =>
        have starts := find?_some found
        obtain ⟨rest, rfl⟩ := isPrefixOf_iff_prefix.mp starts
        rw [drop_left]
        exact ih (drops pattern (mem_of_find?_eq_some found) rest holds)

theorem ValidUTF8.trimSpace (valid : ValidUTF8 s) : ValidUTF8 (trimSpace s) := by
  have space : ∀ pattern ∈ spaces, ValidUTF8 pattern := by decide +kernel
  have left : ValidUTF8 (strip spaces s.length s) :=
    strip_keeps (fun pattern member rest valid => (parts_iff valid).mp (space pattern member)) valid
  refine strip_keeps (P := fun s => ValidUTF8 s.reverse) (fun pattern member rest => ?_) (by rwa [reverse_reverse])
  obtain ⟨original, listed, rfl⟩ := mem_map.mp member
  rw [reverse_append, reverse_reverse]
  exact fun valid => (parts_iff valid).mpr (space original listed)

end Sendplane.Data.Strings
