import Mathlib.Data.List.Dedup
import Mathlib.Data.List.Sort

namespace Sendplane.Data

open List

/-! # Keyed tables

A table is an extensional ordered map, so two tables with the same rows are
equal and listing one yields its rows in key order.  That order is what a store
obtains by collecting the keys of a hash map and sorting them.
-/

abbrev Table (κ : Type) [Ord κ] (α : Type) : Type := Std.ExtTreeMap κ α compare

namespace Table

variable {κ α : Type} [Ord κ] [Std.TransOrd κ]

@[simp] theorem get_empty (key : κ) : (∅ : Table κ α)[key]? = none :=
  Std.ExtTreeMap.getElem?_empty

theorem get_insert_same (table : Table κ α) (key : κ) (row : α) : (table.insert key row)[key]? = some row :=
  Std.ExtTreeMap.getElem?_insert_self

variable {table : Table κ α} {key : κ} {row : α}

theorem size_insert (fresh : table[key]? = none) : (table.insert key row).size = table.size + 1 := by
  have absent : key ∉ table := by
    rw [Std.ExtTreeMap.mem_iff_isSome_getElem?, fresh]
    simp
  rw [Std.ExtTreeMap.size_insert, if_neg (by rwa [Std.ExtTreeMap.contains_iff_mem])]

variable [Std.LawfulEqOrd κ]

theorem get_insert (table : Table κ α) (key other : κ) (row : α) [Decidable (key = other)] :
    (table.insert key row)[other]? = if key = other then some row else table[other]? := by
  rw [Std.ExtTreeMap.getElem?_insert]
  simp

theorem eq_of_get_single {key id : κ} (stored : ((∅ : Table κ α).insert key row)[id]? = some other) :
    key = id ∧ row = other := by
  classical
  rw [get_insert] at stored
  split at stored
  next same => exact ⟨same, Option.some.inj stored⟩
  · cases stored

theorem get_insert_ne (distinct : key ≠ other) : (table.insert key row)[other]? = table[other]? := by
  rw [Std.ExtTreeMap.getElem?_insert, if_neg]
  rwa [Std.LawfulEqCmp.compare_eq_iff_eq]

theorem get_erase (table : Table κ α) (key other : κ) [Decidable (key = other)] :
    (table.erase key)[other]? = if key = other then none else table[other]? := by
  rw [Std.ExtTreeMap.getElem?_erase]
  simp

theorem get_modify (table : Table κ α) (key other : κ) (change : α → α) [Decidable (key = other)] :
    (table.modify key change)[other]? = if key = other then table[other]?.map change else table[other]? := by
  rw [Std.ExtTreeMap.getElem?_modify]
  by_cases same : key = other
  · subst same
    simp
  · simp [same]

theorem modify_eq_insert (stored : table[key]? = some row) :
    table.modify key change = table.insert key (change row) := by
  classical
  refine Std.ExtTreeMap.ext_getElem? fun other => ?_
  rw [get_modify, get_insert]
  by_cases same : key = other
  · subst same
    simp [stored]
  · simp [same]

theorem mem_toList : (key, row) ∈ table.toList ↔ table[key]? = some row :=
  Std.ExtTreeMap.mem_toList_iff_getElem?_eq_some

/-- A table is finite: it has no row under any key that is large enough. -/
theorem exists_bound (size : κ → Nat) (table : Table κ α) : ∃ bound, ∀ key, bound < size key → table[key]? = none := by
  obtain ⟨bound, largest⟩ : ∃ bound, ∀ stored ∈ table.toList, size stored.1 ≤ bound := by
    induction table.toList with
    | nil => exact ⟨0, forall_mem_nil _⟩
    | cons stored rest ih =>
        obtain ⟨bound, largest⟩ := ih
        refine ⟨max (size stored.1) bound, forall_mem_cons.mpr ⟨le_max_left _ _, ?_⟩⟩
        intro other member
        exact (largest other member).trans (le_max_right _ _)
  refine ⟨bound, fun key large => ?_⟩
  cases found : table[key]? with
  | none => rfl
  | some row =>
      have small : size key ≤ bound := largest _ (mem_toList.mpr found)
      omega

def keysWhere (table : Table κ α) (test : κ → α → Bool) : List κ :=
  (table.toList.filter fun entry => test entry.1 entry.2).map Prod.fst

variable {test : κ → α → Bool}

theorem mem_keysWhere : key ∈ table.keysWhere test ↔ ∃ row, table[key]? = some row ∧ test key row = true := by
  simp only [keysWhere, mem_map, mem_filter, Prod.exists]
  constructor
  · rintro ⟨_, row, ⟨stored, passed⟩, rfl⟩
    exact ⟨row, mem_toList.mp stored, passed⟩
  · rintro ⟨row, stored, passed⟩
    exact ⟨key, row, ⟨mem_toList.mpr stored, passed⟩, rfl⟩

omit [Std.LawfulEqOrd κ] in
theorem toList_pairwise (table : Table κ α) :
    (table.toList.map Prod.fst).Pairwise fun left right => compare left right = .lt := by
  have sorted := Std.ExtTreeMap.ordered_keys (t := table)
  rwa [← Std.ExtTreeMap.map_fst_toList_eq_keys] at sorted

omit [Std.LawfulEqOrd κ] in
theorem keysWhere_pairwise (table : Table κ α) :
    (table.keysWhere test).Pairwise fun left right => compare left right = .lt := by
  have sorted := toList_pairwise table
  rw [pairwise_map] at sorted
  rw [keysWhere, pairwise_map]
  exact sorted.filter _

theorem keysWhere_nodup (table : Table κ α) (test : κ → α → Bool) : (table.keysWhere test).Nodup := by
  refine (keysWhere_pairwise table).imp ?_
  rintro left right before rfl
  simp at before

theorem length_keysWhere_insert (fresh : table[key]? = none) :
    (keysWhere (table.insert key row) test).length = (table.keysWhere test).length + if test key row then 1 else 0 := by
  have others : ∀ other, other ∈ keysWhere (table.insert key row) test ↔
      (other = key ∧ test key row = true) ∨ other ∈ table.keysWhere test := by
    intro other
    rw [mem_keysWhere, mem_keysWhere]
    by_cases same : other = key
    · subst same
      simp [fresh]
    · rw [get_insert_ne (Ne.symm same)]
      simp [same]
  have absent : key ∉ table.keysWhere test := by
    rw [mem_keysWhere]
    simp [fresh]
  cases passes : test key row with
  | true =>
      have perm : (keysWhere (table.insert key row) test).Perm (key :: table.keysWhere test) := by
        rw [perm_ext_iff_of_nodup (keysWhere_nodup _ _) (nodup_cons.mpr ⟨absent, keysWhere_nodup _ _⟩)]
        intro other
        simp [others, passes]
      exact perm.length_eq
  | false =>
      have perm : (keysWhere (table.insert key row) test).Perm (table.keysWhere test) := by
        rw [perm_ext_iff_of_nodup (keysWhere_nodup _ _) (keysWhere_nodup _ _)]
        intro other
        simp [others, passes]
      exact perm.length_eq

theorem length_keysWhere_insert_le (table : Table κ α) :
    (keysWhere (table.insert key row) test).length ≤ (table.keysWhere test).length + 1 := by
  have others : keysWhere (table.insert key row) test ⊆ key :: table.keysWhere test := by
    intro other member
    rw [mem_cons]
    by_cases same : other = key
    · exact .inl same
    · right
      rw [mem_keysWhere] at member ⊢
      rwa [get_insert_ne (Ne.symm same)] at member
  exact (subperm_of_subset (keysWhere_nodup _ _) others).length_le

theorem length_keysWhere_insert_of_not (fails : test key row = false) (table : Table κ α) :
    (keysWhere (table.insert key row) test).length ≤ (table.keysWhere test).length := by
  have others : keysWhere (table.insert key row) test ⊆ table.keysWhere test := by
    intro other member
    rw [mem_keysWhere] at member ⊢
    obtain ⟨found, stored, passes⟩ := member
    by_cases same : key = other
    · rw [← same, get_insert_same] at stored
      rw [← same, ← Option.some.inj stored, fails] at passes
      cases passes
    · rw [get_insert_ne same] at stored
      exact ⟨found, stored, passes⟩
  exact (subperm_of_subset (keysWhere_nodup _ _) others).length_le

/-- Two lists in key order with the same keys are one list. -/
theorem eq_of_pairwise_lt {left right : List κ}
    (leftSorted : left.Pairwise fun first second => compare first second = .lt)
    (rightSorted : right.Pairwise fun first second => compare first second = .lt)
    (same : ∀ key, key ∈ left ↔ key ∈ right) : left = right := by
  have antisymmetric : Std.Antisymm fun first second : κ => compare first second = .lt := by
    constructor
    intro first second before after
    rw [Std.OrientedCmp.gt_of_lt before] at after
    cases after
  have irreflexive : Std.Irrefl fun first second : κ => compare first second = .lt := by
    constructor
    intro key before
    simp at before
  exact Pairwise.eq_of_mem_iff leftSorted rightSorted fun key => same key

def updateAll (table : Table κ α) (keys : List κ) (change : α → α) : Table κ α :=
  keys.foldl (fun table key => table.modify key change) table

variable {keys : List κ} {change : α → α}

theorem get_updateAll (distinct : keys.Nodup) [listed : Decidable (key ∈ keys)] :
    (table.updateAll keys change)[key]? = if key ∈ keys then table[key]?.map change else table[key]? := by
  classical
  induction keys generalizing table listed with
  | nil => simp [updateAll]
  | cons first rest ih =>
      rw [nodup_cons] at distinct
      have step : table.updateAll (first :: rest) change = updateAll (table.modify first change) rest change := rfl
      rw [step, ih distinct.2, get_modify]
      by_cases same : first = key
      · subst same
        simp [distinct.1]
      · simp [same, Ne.symm same]

def eraseAll (table : Table κ α) (keys : List κ) : Table κ α :=
  keys.foldl (fun table key => table.erase key) table

theorem get_eraseAll (kept : key ∉ keys) : (table.eraseAll keys)[key]? = table[key]? := by
  classical
  induction keys generalizing table with
  | nil => rfl
  | cons first rest ih =>
      rw [mem_cons, not_or] at kept
      rw [eraseAll, foldl_cons, ← eraseAll, ih kept.2, get_erase, if_neg (Ne.symm kept.1)]

def overwriteAll (table : Table κ α) (key : α → κ) (rows : List α) : Table κ α :=
  rows.foldl (fun table row => table.insert (key row) row) table

def insertNew (table : Table κ α) (key : α → κ) (rows : List α) : Table κ α :=
  rows.foldl (fun table row => if table[key row]?.isSome then table else table.insert (key row) row) table

theorem insertNew_eq_overwriteAll [DecidableEq κ] {table : Table κ α} {key : α → κ} (distinct : (rows.map key).Nodup)
    (fresh : ∀ row ∈ rows, table[key row]? = none) : table.insertNew key rows = table.overwriteAll key rows := by
  induction rows generalizing table with
  | nil => rfl
  | cons row rest ih =>
      obtain ⟨first, others⟩ := forall_mem_cons.mp fresh
      obtain ⟨apart, distinct⟩ := nodup_cons.mp distinct
      rw [insertNew, overwriteAll, foldl_cons, foldl_cons, ← insertNew, ← overwriteAll, first, Option.isSome_none,
        if_neg Bool.false_ne_true]
      refine ih distinct fun other member => ?_
      rw [get_insert_ne, others other member]
      rintro same
      exact apart (same ▸ mem_map_of_mem member)

theorem get_overwriteAll [DecidableEq κ] (table : Table κ α) (key : α → κ) :
    (table.overwriteAll key rows)[k]? = (rows.reverse.find? fun row => key row = k).or table[k]? := by
  induction rows generalizing table with
  | nil => simp [overwriteAll]
  | cons row rest ih =>
      rw [overwriteAll, foldl_cons, ← overwriteAll, ih, get_insert, reverse_cons, find?_append]
      by_cases same : key row = k
      · simp [same]
      · simp [same]

/-- No row appears or disappears, and each row stays or moves as allowed. -/
def Changes (allowed : κ → α → α → Prop) (before after : Table κ α) : Prop :=
  ∀ key : κ, after[key]? = before[key]? ∨
    ∃ old new, before[key]? = some old ∧ after[key]? = some new ∧ allowed key old new

variable {after : Table κ α}

omit [Std.LawfulEqOrd κ] in
theorem Changes.refl (table : Table κ α) : Changes allowed table table :=
  fun _ => .inl rfl

omit [Std.LawfulEqOrd κ] in
theorem Changes.imp (changes : Changes allowed before after)
    (implied : ∀ key old new, before[key]? = some old → allowed key old new → weaker key old new) :
    Changes weaker before after := by
  intro key
  rcases changes key with same | ⟨old, new, stored, moved, may⟩
  · exact .inl same
  · exact .inr ⟨old, new, stored, moved, implied key old new stored may⟩

omit [Std.LawfulEqOrd κ] in
theorem Changes.get (changes : Changes allowed before after) (stored : before[key]? = some old) :
    ∃ new, after[key]? = some new ∧ (new = old ∨ allowed key old new) := by
  rcases changes key with same | ⟨previous, new, found, moved, may⟩
  · exact ⟨old, same.trans stored, .inl rfl⟩
  · obtain rfl : previous = old := Option.some.inj (found.symm.trans stored)
    exact ⟨new, moved, .inr may⟩

omit [Std.LawfulEqOrd κ] in
theorem Changes.origin (changes : Changes allowed before after) (stored : after[key]? = some new) :
    ∃ old, before[key]? = some old ∧ (new = old ∨ allowed key old new) := by
  rcases changes key with same | ⟨old, next, found, moved, may⟩
  · exact ⟨new, same.symm.trans stored, .inl rfl⟩
  · obtain rfl : next = new := Option.some.inj (moved.symm.trans stored)
    exact ⟨old, found, .inr may⟩

omit [Std.LawfulEqOrd κ] in
theorem Changes.missing (changes : Changes allowed before after) (gone : after[key]? = none) : before[key]? = none := by
  rcases changes key with same | ⟨_, _, _, moved, _⟩
  · exact same.symm.trans gone
  · rw [gone] at moved
    cases moved

theorem changes_modify :
    Changes (fun changed old new => changed = key ∧ new = change old) before (before.modify key change) := by
  classical
  intro other
  rw [get_modify]
  by_cases same : key = other
  · subst same
    cases stored : before[key]? with
    | none => simp
    | some old => exact .inr ⟨old, change old, rfl, by simp, rfl, rfl⟩
  · exact .inl (if_neg same)

theorem changes_insert (stored : before[key]? = some row) :
    Changes (fun changed old next => changed = key ∧ old = row ∧ next = new) before (before.insert key new) := by
  classical
  intro other
  rw [get_insert]
  by_cases same : key = other
  · subst same
    exact .inr ⟨row, new, stored, if_pos rfl, rfl, rfl, rfl⟩
  · exact .inl (if_neg same)

theorem changes_updateAll (distinct : keys.Nodup) :
    Changes (fun key old new => key ∈ keys ∧ new = change old) before (before.updateAll keys change) := by
  classical
  intro key
  rw [get_updateAll distinct]
  by_cases listed : key ∈ keys
  · cases stored : before[key]? with
    | none => simp
    | some old => exact .inr ⟨old, change old, rfl, by simp [listed], listed, rfl⟩
  · exact .inl (if_neg listed)

def All (test : α → Prop) (table : Table κ α) : Prop :=
  ∀ (key : κ) (row : α), table[key]? = some row → test row

section

variable {test : α → Prop} {table : Table κ α}

omit [Std.LawfulEqOrd κ] in
theorem all_empty : All test (∅ : Table κ α) := by
  intro key row stored
  cases stored

section

variable (all : All test table)
include all

theorem All.insert (key : κ) (passes : test row) : All test (table.insert key row) := by
  classical
  intro other found stored
  rw [get_insert] at stored
  split at stored
  · exact Option.some.inj stored ▸ passes
  · exact all other found stored

theorem All.erase (key : κ) : All test (table.erase key) := by
  classical
  intro other found stored
  rw [get_erase] at stored
  split at stored
  · cases stored
  · exact all other found stored

theorem All.modify (key : κ) (kept : ∀ row, test row → test (change row)) : All test (table.modify key change) := by
  classical
  intro other found stored
  rw [get_modify] at stored
  split at stored
  · obtain ⟨row, before, rfl⟩ := Option.map_eq_some_iff.mp stored
    exact kept row (all other row before)
  · exact all other found stored

theorem All.updateAll (keys : List κ) (kept : ∀ row, test row → test (change row)) :
    All test (table.updateAll keys change) := by
  induction keys generalizing table with
  | nil => exact all
  | cons key rest ih => exact ih (all.modify key kept)

theorem All.eraseAll (keys : List κ) : All test (table.eraseAll keys) := by
  induction keys generalizing table with
  | nil => exact all
  | cons key rest ih => exact ih (all.erase key)

end

end

end Table

/-- A limit that is not positive keeps the whole list. -/
def takeLimit {α : Type} (limit : Int) (values : List α) : List α :=
  if 0 < limit ∧ limit < values.length then values.take limit.toNat else values

section

variable {α : Type} {values : List α}

theorem takeLimit_sublist : (takeLimit limit values).Sublist values := by
  unfold takeLimit
  split
  · exact take_sublist _ _
  · exact Sublist.refl _

theorem mem_of_mem_takeLimit (kept : value ∈ takeLimit limit values) : value ∈ values :=
  takeLimit_sublist.subset kept

theorem takeLimit_nodup (distinct : values.Nodup) : (takeLimit limit values).Nodup :=
  distinct.sublist takeLimit_sublist

theorem takeLimit_pos (count : Nat) (positive : 0 < count) : takeLimit (count : Int) values = values.take count := by
  unfold takeLimit
  split
  · simp
  · rw [take_of_length_le]
    omega

theorem takeLimit_nonpos (unlimited : limit ≤ 0) : takeLimit limit values = values := by
  unfold takeLimit
  rw [if_neg]
  omega

/-- Dropping repetitions and the values that fail a test loses nothing only if
there was nothing to drop. -/
theorem length_eq_dedup_filter_iff [DecidableEq α] :
    values.length = (values.filter test).dedup.length ↔ values.Nodup ∧ ∀ value ∈ values, test value = true := by
  have dropped : (values.filter test).dedup.length ≤ (values.filter test).length := (dedup_sublist _).length_le
  have filtered : (values.filter test).length ≤ values.length := length_filter_le _ _
  constructor
  · intro equal
    have all : values.filter test = values := filter_sublist.eq_of_length (by omega)
    have distinct : (values.filter test).dedup = values.filter test := (dedup_sublist _).eq_of_length (by omega)
    rw [all] at distinct
    exact ⟨dedup_eq_self.mp distinct, filter_eq_self.mp all⟩
  · intro both
    rw [filter_eq_self.mpr both.2, dedup_eq_self.mpr both.1]

end

end Sendplane.Data
