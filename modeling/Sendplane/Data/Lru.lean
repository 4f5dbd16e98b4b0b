import Mathlib.Data.List.Basic

namespace Sendplane.Data

/-- The entries, the most recently used one first. -/
structure Lru (κ α : Type) where
  cap : Nat
  entries : List (κ × α) := []

namespace Lru

variable {κ α : Type} [DecidableEq κ]

def new (capacity : Int) : Lru κ α where
  cap := if capacity < 1 then 1 else capacity.toNat

def touch (cache : Lru κ α) (key : κ) (v : α) : Lru κ α :=
  { cache with entries := (key, v) :: cache.entries.filter fun entry => entry.1 ≠ key }

def get (cache : Lru κ α) (key : κ) : Option α × Lru κ α :=
  match cache.entries.lookup key with
  | some v => (some v, cache.touch key v)
  | none => (none, cache)

/-- A new entry pushes out the least recently used ones. -/
def put (cache : Lru κ α) (key : κ) (v : α) : Lru κ α :=
  match cache.entries.lookup key with
  | some _ => cache.touch key v
  | none => { cache with entries := ((key, v) :: cache.entries).take cache.cap }

variable {cache : Lru κ α}

theorem mem_touch (member : entry ∈ (cache.touch key v).entries) : entry = (key, v) ∨ entry ∈ cache.entries := by
  rcases List.mem_cons.mp member with same | kept
  · exact .inl same
  · exact .inr (List.mem_of_mem_filter kept)

theorem mem_of_lookup (found : cache.entries.lookup key = some v) : (key, v) ∈ cache.entries := by
  obtain ⟨before, after, split, -⟩ := List.lookup_eq_some_iff.mp found
  simp [split]

theorem mem_of_get (hit : (cache.get key).1 = some v) : (key, v) ∈ cache.entries := by
  unfold get at hit
  split at hit
  · rename_i found
    cases hit
    exact mem_of_lookup found
  · cases hit

theorem mem_get (member : entry ∈ (cache.get key).2.entries) : entry ∈ cache.entries := by
  unfold get at member
  split at member
  · rename_i found
    rcases mem_touch member with rfl | kept
    · exact mem_of_lookup found
    · exact kept
  · exact member

theorem mem_put (member : entry ∈ (cache.put key v).entries) : entry = (key, v) ∨ entry ∈ cache.entries := by
  unfold put at member
  split at member
  · exact mem_touch member
  · exact List.mem_cons.mp (List.mem_of_mem_take member)

end Lru

end Sendplane.Data
