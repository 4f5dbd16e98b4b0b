import Mathlib.Data.List.Dedup

namespace Sendplane.Data

open List

abbrev Roster (κ α : Type) := κ → Option α

namespace Roster

variable {κ α : Type} [DecidableEq κ]

def enter (known : Roster κ α) (row : κ × α) : Roster κ α :=
  fun key => if key = row.1 then known key <|> some row.2 else known key

def enlist (known : Roster κ α) (rows : List (κ × α)) : Roster κ α :=
  rows.foldl enter known

def added (known : Roster κ α) : List (κ × α) → Nat
  | [] => 0
  | row :: rest => (if (known row.1).isSome then 0 else 1) + added (enter known row) rest

variable {known : Roster κ α} {rows : List (κ × α)}

@[simp] theorem enlist_nil : enlist known [] = known := rfl

@[simp] theorem enlist_cons : enlist known (row :: rows) = enlist (enter known row) rows := rfl

theorem enlist_append : enlist known (first ++ second) = enlist (enlist known first) second := by
  simp [enlist]

@[simp] theorem added_nil : added known [] = 0 := rfl

theorem added_append : added known (first ++ second) = added known first + added (enlist known first) second := by
  induction first generalizing known with
  | nil => simp
  | cons row rest ih =>
      simp only [cons_append, added, ih, enlist_cons]
      omega

theorem added_le_length (known : Roster κ α) (rows : List (κ × α)) : added known rows ≤ rows.length := by
  induction rows generalizing known with
  | nil => simp
  | cons row rest ih =>
      have below := ih (enter known row)
      simp only [added, length_cons]
      split <;> omega

theorem enter_known (taken : (known row.1).isSome) : enter known row = known := by
  funext key
  by_cases same : key = row.1
  · obtain ⟨value, found⟩ := Option.isSome_iff_exists.mp taken
    simp [enter, same, found]
  · simp [enter, same]

theorem added_cons_known (taken : (known row.1).isSome) : added known (row :: rows) = added known rows := by
  simp [added, taken, enter_known taken]

theorem enlist_isSome_iff : (enlist known rows key).isSome ↔ (known key).isSome ∨ key ∈ rows.map Prod.fst := by
  induction rows generalizing known with
  | nil => simp
  | cons row rest ih =>
      rw [enlist_cons, ih, enter, map_cons]
      by_cases same : key = row.1
      · subst same
        cases known row.1 <;> simp
      · simp [same]

theorem enlist_of_known (taken : ∀ row ∈ rows, (known row.1).isSome) : enlist known rows = known := by
  induction rows with
  | nil => rfl
  | cons row rest ih =>
      rw [enlist_cons, enter_known (taken row mem_cons_self)]
      exact ih fun row member => taken row (mem_cons_of_mem _ member)

theorem added_of_known (taken : ∀ row ∈ rows, (known row.1).isSome) : added known rows = 0 := by
  induction rows with
  | nil => rfl
  | cons row rest ih =>
      rw [added_cons_known (taken row mem_cons_self)]
      exact ih fun row member => taken row (mem_cons_of_mem _ member)

theorem taken_of_enlist (part : ∀ row ∈ rows, row ∈ first) : ∀ row ∈ rows, (enlist known first row.1).isSome := by
  intro row member
  rw [enlist_isSome_iff]
  exact .inr (mem_map_of_mem (part row member))

/-- A row that repeats an earlier key may be left out. -/
theorem enlist_repeated (repeated : row.1 ∈ first.map Prod.fst) :
    enlist known (first ++ row :: second) = enlist known (first ++ second) := by
  rw [enlist_append, enlist_append, enlist_cons, enter_known]
  rw [enlist_isSome_iff]
  exact .inr repeated

theorem added_repeated (repeated : row.1 ∈ first.map Prod.fst) :
    added known (first ++ row :: second) = added known (first ++ second) := by
  rw [added_append, added_append, added_cons_known]
  rw [enlist_isSome_iff]
  exact .inr repeated

/-- Entering the first of the rows beforehand makes no difference. -/
theorem enlist_longer (part : first <+: rows) : enlist (enlist known first) rows = enlist known rows := by
  obtain ⟨rest, rfl⟩ := part
  rw [enlist_append, enlist_append]
  congr 1
  exact enlist_of_known (taken_of_enlist fun _ member => member)

theorem enlist_of_beginning (part : first <+: rows) : enlist (enlist known rows) first = enlist known rows := by
  exact enlist_of_known (taken_of_enlist fun _ member => part.subset member)

theorem added_prefix (part : first <+: rows) :
    added known first + added (enlist known first) rows = added known rows := by
  obtain ⟨rest, rfl⟩ := part
  rw [added_append, added_append, added_of_known (taken_of_enlist fun _ member => member),
    enlist_of_known (taken_of_enlist fun _ member => member)]
  omega

/-- The new rows are the distinct keys that were not taken. -/
theorem added_eq_dedup :
    added known rows = ((rows.map Prod.fst).dedup.filter fun key => (known key).isNone).length := by
  induction rows generalizing known with
  | nil => rfl
  | cons row rest ih =>
      rw [map_cons]
      by_cases taken : (known row.1).isSome
      · rw [added_cons_known taken, ih]
        apply Perm.length_eq
        rw [perm_ext_iff_of_nodup ((nodup_dedup _).filter _) ((nodup_dedup _).filter _)]
        intro key
        simp only [mem_filter, mem_dedup, mem_cons]
        constructor
        · rintro ⟨member, free⟩
          exact ⟨.inr member, free⟩
        · rintro ⟨rfl | member, free⟩
          · simp_all
          · exact ⟨member, free⟩
      · rw [added, if_neg taken, ih, Nat.add_comm, ← length_cons (a := row.1)]
        apply Perm.length_eq
        rw [perm_ext_iff_of_nodup (nodup_cons.mpr ⟨?_, (nodup_dedup _).filter _⟩)
          ((nodup_dedup _).filter _)]
        · intro key
          by_cases same : key = row.1
          · simp_all
          · simp [enter, same]
        · simp [enter]

end Roster

end Sendplane.Data
