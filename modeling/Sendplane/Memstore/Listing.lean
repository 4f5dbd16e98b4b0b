import Sendplane.Data.Paging
import Sendplane.Memstore.Aggregates

namespace Sendplane.Memstore

open Data Store

variable {α : Type}

theorem compare_nil_ne_lt (id : Text) : compare id [] ≠ .lt := by
  cases id with
  | nil => decide
  | cons byte rest => simp [compare, List.compareLex]

theorem compare_nil {id : Text} (named : id ≠ []) : compare id [] = .gt := by
  cases id with
  | nil => exact absurd rfl named
  | cons byte rest => rfl

theorem normalize_limit_pos (page : Page) : 0 < page.normalize.limit.toNat := by
  have positive : 0 < page.normalize.limit := by
    simp only [Page.normalize, defaultPageLimit, maxPageLimit]
    split <;> split <;> omega
  omega

theorem paginate_page (rows : Table Text α) (page : Page) (keep : α → Bool) :
    rows.PageAfter keep page.normalize.limit.toNat [] page.cursor (paginate rows page keep).items
      (paginate rows page keep).nextCursor :=
  ⟨rfl, rfl⟩

theorem paginate_drains (rows : Table Text α) (limit : Int) (keep : α → Bool) (cursor : Text) :
    Drains (fun cursor items next => paginate rows { limit, cursor } keep = ⟨items, next⟩) [] cursor
      ((rows.after keep cursor).map Prod.snd) := by
  refine (Table.drains_after rows (normalize_limit_pos { limit }) compare_nil_ne_lt).mono ?_
  rintro cursor items next ⟨rfl, rfl⟩
  rfl

/-- The row of a key.  Keys are unique, so the order in which a hash map yields
its rows does not matter. -/
def rowOfKey (key : α → Text) (rows : Table Text α) (wanted : Text) : Option α :=
  if wanted = [] then none else (rows.toList.find? fun entry => key entry.2 = wanted).map Prod.snd

def findKey (key : α → Text) (rows : Table Text α) (wanted : Text) : Except Err α :=
  match rowOfKey key rows wanted with
  | some row => .ok row
  | none => .error (.wrap .notFound (text "key " ++ Strings.quote wanted))

def TableRepo.getByKey (repo : TableRepo α) (key : Text) (s : TenantStore) : Except Err α :=
  findKey repo.key (repo.rows.get s) key

/-- No two rows share a key, unless it is empty. -/
def KeysUnique (key : α → Text) (rows : Table Text α) : Prop :=
  ∀ (id other : Text) (row same : α), rows[id]? = some row → rows[other]? = some same →
    key row = key same → key row ≠ [] → id = other

theorem rowOfKey_iff (unique : KeysUnique key rows) :
    rowOfKey key rows wanted = some row ↔ wanted ≠ [] ∧ key row = wanted ∧ ∃ id : Text, rows[id]? = some row := by
  rw [rowOfKey]
  by_cases empty : wanted = []
  · simp [empty]
  rw [if_neg empty]
  constructor
  · intro found
    obtain ⟨⟨id, same⟩, first, rfl⟩ := Option.map_eq_some_iff.mp found
    exact ⟨empty, by simpa using List.find?_some first, id, Table.mem_toList.mp (List.mem_of_find?_eq_some first)⟩
  · rintro ⟨-, rfl, id, stored⟩
    cases first : rows.toList.find? fun entry => key entry.2 = key row with
    | none =>
        have none := List.find?_eq_none.mp first (id, row) (Table.mem_toList.mpr stored)
        simp at none
    | some entry =>
        have matching : key entry.2 = key row := by simpa using List.find?_some first
        have there : rows[entry.1]? = some entry.2 := Table.mem_toList.mp (List.mem_of_find?_eq_some first)
        have same := unique _ _ _ _ there stored matching (matching ▸ empty)
        rw [same, stored, Option.some.injEq] at there
        rw [Option.map_some, there]

theorem rowOfKey_eq_none (unique : KeysUnique key rows) :
    rowOfKey key rows wanted = none ↔ wanted = [] ∨ ∀ (id : Text) (row : α), rows[id]? = some row → key row ≠ wanted := by
  rw [Option.eq_none_iff_forall_ne_some]
  simp only [ne_eq, rowOfKey_iff unique, not_and, not_exists]
  constructor
  · intro absent
    by_cases empty : wanted = []
    · exact .inl empty
    · exact .inr fun id row stored same => absent row empty same id stored
  · rintro (empty | absent) row named same id stored
    · exact named empty
    · exact absent id row stored same

end Sendplane.Memstore
