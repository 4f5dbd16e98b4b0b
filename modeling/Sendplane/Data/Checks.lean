import Mathlib.Data.List.Forall2

namespace Sendplane.Data

open List

namespace Checks

variable {ε α β : Type}

theorem bind_ok {next : α → Except ε β} (passed : first >>= next = .ok result) :
    ∃ value, first = .ok value ∧ next value = .ok result := by
  cases first with
  | error e => cases passed
  | ok value => exact ⟨value, rfl, passed⟩

variable {items : List α}

theorem forM_ok {check : α → Except ε PUnit} (passed : items.forM check = .ok ()) :
    ∀ item ∈ items, check item = .ok () := by
  induction items with
  | nil => simp
  | cons item rest ih =>
      obtain ⟨value, first, later⟩ := bind_ok passed
      exact forall_mem_cons.mpr ⟨first, ih later⟩

theorem mapM_some_iff :
    items.mapM f = some results ↔ Forall₂ (fun item result => f item = some result) items results := by
  induction items generalizing results with
  | nil => simp
  | cons item rest ih =>
      cases first : f item with
      | none => simp [first, forall₂_cons_left_iff]
      | some result =>
          simp only [mapM_cons, first, forall₂_cons_left_iff, Option.bind_eq_bind, Option.bind_some,
            Option.bind_eq_some_iff, Option.pure_def, Option.some.injEq]
          simp only [ih]
          constructor
          · rintro ⟨later, walked, rfl⟩
            exact ⟨result, later, rfl, walked, rfl⟩
          · rintro ⟨_, later, rfl, walked, rfl⟩
            exact ⟨later, walked, rfl⟩

theorem exists_of_mapM (walked : items.mapM f = some results) (member : result ∈ results) :
    ∃ item ∈ items, f item = some result := by
  induction mapM_some_iff.mp walked with
  | nil => cases member
  | @cons item head rest tail first others ih =>
      rcases mem_cons.mp member with rfl | later
      · exact ⟨item, mem_cons_self, first⟩
      · obtain ⟨found, inside, same⟩ := ih (mapM_some_iff.mpr others) later
        exact ⟨found, mem_cons_of_mem _ inside, same⟩

theorem mem_of_mapM (walked : items.mapM f = some results) (member : item ∈ items) (maps : f item = some result) :
    result ∈ results := by
  induction mapM_some_iff.mp walked with
  | nil => cases member
  | @cons head _ rest tail first others ih =>
      rcases mem_cons.mp member with rfl | later
      · rw [maps, Option.some.injEq] at first
        exact first ▸ mem_cons_self
      · exact mem_cons_of_mem _ (ih (mapM_some_iff.mpr others) later)

theorem mapM_of_forall (maps : ∀ item ∈ items, ∃ result, f item = some result) :
    ∃ results, items.mapM f = some results := by
  induction items with
  | nil => exact ⟨[], rfl⟩
  | cons item rest ih =>
      obtain ⟨result, first⟩ := maps item mem_cons_self
      obtain ⟨results, others⟩ := ih fun other member => maps other (mem_cons_of_mem _ member)
      exact ⟨result :: results, by rw [mapM_cons, first, others]; rfl⟩

end Checks

end Sendplane.Data
