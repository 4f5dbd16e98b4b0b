import Sendplane.Data.Table

namespace Sendplane.Data

/-- A value with the time it was got at. -/
structure Cached (α : Type) where
  v : α
  time : Int

abbrev Cache (κ α : Type) [Ord κ] [Std.TransOrd κ] := Table κ (Cached α)

namespace Cache

variable {κ α : Type} [Ord κ] [Std.TransOrd κ]

/-- The value remembered under the key, while it lives; without a time to live
it never dies. -/
def hit (cache : Cache κ α) (ttl : Int) (key : κ) (now : Int) : Option α :=
  (cache[key]?).bind fun e => if ttl ≤ 0 ∨ now - e.time < ttl then some e.v else none

def remember (cache : Cache κ α) (key : κ) (v : α) (now : Int) : Cache κ α :=
  cache.insert key ⟨v, now⟩

theorem hit_remember [Std.LawfulEqOrd κ] (cache : Cache κ α) (ttl : Int) (key other : κ) (v : α) (now : Int)
    [Decidable (key = other)] :
    (cache.remember key v now).hit ttl other now = if key = other then some v else cache.hit ttl other now := by
  have fresh : ttl ≤ 0 ∨ now - now < ttl := by omega
  simp only [hit, remember, Table.get_insert]
  split
  · simp
  · rfl

end Cache

end Sendplane.Data
