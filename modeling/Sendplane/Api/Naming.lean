import Sendplane.Api.Replay
import Sendplane.Postgres.Delivery

namespace Sendplane.Api

open Data Store

/-- What the ID of a delivery of a keyed message is made of. -/
structure MessageSlot where
  tenantID : Text
  key : Text
  index : Nat
  emailNorm : Text
deriving DecidableEq

namespace MessageSlot

def name (slot : MessageSlot) : Text :=
  slot.tenantID ++ text ":" ++ slot.key ++ text ":" ++ text (toString slot.index) ++ text ":" ++ slot.emailNorm

/-- The parts between the colons of the tenant, the key, the position and the
address, one after another. -/
def parts (slot : MessageSlot) : List Text :=
  slot.tenantID.splitOn 58 ++ slot.key.splitOn 58 ++ [text (toString slot.index)] ++ slot.emailNorm.splitOn 58

end MessageSlot

namespace MessageServer

variable (srv : MessageServer)

def slotID (slot : MessageSlot) (newID : Text) : Text :=
  srv.transactionalID slot.tenantID slot.key slot.emailNorm slot.index newID

def nameID (name : Text) : Text :=
  Uuid.ofHash 5 (srv.sha1 (nameSpaceURL ++ (text "urn:sendplane:message:" ++ name)))

theorem slotID_eq {slot : MessageSlot} (keyed : slot.key ≠ []) : srv.slotID slot newID = srv.nameID slot.name := by
  simp [slotID, transactionalID, if_neg keyed, nameID, MessageSlot.name]

end MessageServer

theorem text_append : text (first ++ second) = text first ++ text second := by
  simp [text]

theorem text_toString : text (toString value) = decimal value := by
  have digit : ∀ small < 10, text (String.ofList [small.digitChar]) = [UInt8.ofNat (48 + small)] := by decide
  induction value using Nat.strongRecOn with
  | ind value ih =>
      rw [decimal]
      split
      case isTrue small => rw [Nat.toString_eq_ofList_toDigits, Nat.toDigits_of_lt_base small, digit value small]
      case isFalse large =>
        rw [Nat.toString_eq_ofList_toDigits, Nat.toDigits_of_base_le (by decide) (not_lt.mp large), String.ofList_append,
          text_append, ← Nat.toString_eq_ofList_toDigits, ih (value / 10) (by omega), digit (value % 10) (by omega)]

theorem colon_not_mem_toString (value : Nat) : (58 : UInt8) ∉ text (toString value) := by
  rw [text_toString]
  intro member
  have digit := decimal_digit member
  have colon : (58 : UInt8).toNat = 58 := rfl
  omega

theorem toString_inj {left right : Nat} (same : text (toString left) = text (toString right)) : left = right := by
  rw [text_toString, text_toString] at same
  rw [← decimalValue_decimal left, same, decimalValue_decimal]

/-- The tenant ends at the first colon, the address begins after the last one
and the key ends at the one before, whatever the key holds. -/
theorem MessageSlot.name_inj {left right : MessageSlot} (leftTenant : 58 ∉ left.tenantID)
    (rightTenant : 58 ∉ right.tenantID) (leftAddress : 58 ∉ left.emailNorm) (rightAddress : 58 ∉ right.emailNorm)
    (same : left.name = right.name) : left = right := by
  have colon : text ":" = [58] := rfl
  simp only [name, colon, List.append_assoc] at same
  obtain ⟨tenants, rest⟩ := append_sep_inj leftTenant rightTenant same
  have regrouped : (left.key ++ 58 :: text (toString left.index)) ++ 58 :: left.emailNorm =
      (right.key ++ 58 :: text (toString right.index)) ++ 58 :: right.emailNorm := by
    simpa using rest
  obtain ⟨rest, addresses⟩ := append_sep_inj_last leftAddress rightAddress regrouped
  obtain ⟨keys, indexes⟩ :=
    append_sep_inj_last (colon_not_mem_toString left.index) (colon_not_mem_toString right.index) rest
  cases left
  simp only at tenants keys indexes addresses
  rw [tenants, keys, toString_inj indexes, addresses]

theorem MessageSlot.splitOn_name (slot : MessageSlot) : slot.name.splitOn 58 = slot.parts := by
  have colon : text ":" = [58] := rfl
  simp only [name, parts, colon, List.append_assoc, List.cons_append, List.nil_append,
    List.splitOn_append_cons_self, List.splitOn_eq_singleton (colon_not_mem_toString slot.index)]

theorem MessageSlot.name_eq_iff (left right : MessageSlot) : left.name = right.name ↔ left.parts = right.parts := by
  have whole : ∀ name : Text, [58].intercalate (name.splitOn 58) = name := fun _ => List.intercalate_splitOn 58
  rw [← splitOn_name, ← splitOn_name]
  refine ⟨congrArg _, fun same => ?_⟩
  rw [← whole left.name, same, whole]

namespace MessageServer

variable (srv : MessageServer) {left right : MessageSlot}

/-- Two slots have different IDs unless they consist of the same parts, which
slots without colons in the tenants and in the addresses do not. -/
theorem slotID_separates_iff (keyed : left.key ≠ []) (keyed' : right.key ≠ []) (newID newID' : Text)
    (hashed : srv.nameID left.name = srv.nameID right.name → left.name = right.name) :
    ((srv.slotID left newID = srv.slotID right newID' → left = right) ↔ left = right ∨ left.parts ≠ right.parts) ∧
      (58 ∉ left.tenantID → 58 ∉ right.tenantID → 58 ∉ left.emailNorm → 58 ∉ right.emailNorm →
        srv.slotID left newID = srv.slotID right newID' → left = right) := by
  have same : srv.slotID left newID = srv.slotID right newID' ↔ left.name = right.name := by
    rw [srv.slotID_eq keyed, srv.slotID_eq keyed']
    exact ⟨hashed, congrArg srv.nameID⟩
  rw [same]
  refine ⟨?_, MessageSlot.name_inj⟩
  rw [MessageSlot.name_eq_iff, or_comm, ← imp_iff_not_or]

theorem slotID_separates_tenants :
    plainServer.slotID ⟨text "t1", text "k:1", 0, text "a@b"⟩ [] ≠
      plainServer.slotID ⟨text "t2", text "k:1", 0, text "a@b"⟩ [] := by
  intro same
  have equal := (plainServer.slotID_separates_iff (by decide) (by decide) [] [] (by decide +kernel)).2
    (by decide) (by decide) (by decide) (by decide) same
  exact absurd equal (by decide)

end MessageServer

/-- The key `b:c` of tenant `a` is the key `c` of tenant `a:b`, whose delivery
is then dropped. -/
theorem foreign_key_collides :
    let left : MessageSlot := ⟨text "a", text "b:c", 0, text "ann@example.org"⟩
    let right : MessageSlot := ⟨text "a:b", text "c", 0, text "ann@example.org"⟩
    let row := fun slot : MessageSlot =>
      ({ id := plainServer.slotID slot [], tenantID := slot.tenantID, emailNorm := slot.emailNorm } : Delivery)
    let table := (Postgres.insertBatch left.tenantID ∅ 1000000 (fun _ => []) [row left]).2
    left ≠ right ∧ Strings.trimSpace left.key = left.key ∧ Strings.trimSpace right.key = right.key ∧
      plainServer.slotID left [] = plainServer.slotID right [] ∧ table.size = 1 ∧
      Postgres.insertBatch right.tenantID table 1000000 (fun _ => []) [row right] = (.ok 0, table) := by
  decide +kernel

end Sendplane.Api
