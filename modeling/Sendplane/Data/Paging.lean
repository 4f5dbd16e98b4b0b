import Sendplane.Data.Table

namespace Sendplane.Data

open List

variable {κ α β : Type}

/-- The pages from a cursor on end, with these items in all. -/
inductive Drains (page : κ → List α → κ → Prop) (done : κ) : κ → List α → Prop
  | last {cursor : κ} {items : List α} (listed : page cursor items done) : Drains page done cursor items
  | more {cursor next : κ} {items rest : List α} (listed : page cursor items next) (open_ : next ≠ done)
      (drains : Drains page done next rest) : Drains page done cursor (items ++ rest)

variable {done cursor : κ}

/-- The rule for a listing: every page hands out a first part of what its cursor
leaves, and the next cursor leaves the rest.  The measure is for pages without items. -/
theorem Drains.of_step (leaves : κ → List α → Nat → Prop)
    (step : ∀ {cursor due count}, leaves cursor due count → ∃ items next, page cursor items next ∧
      (next = done ∧ due = items ∨
        next ≠ done ∧ ∃ rest fewer, due = items ++ rest ∧ fewer < count ∧ leaves next rest fewer))
    {count : Nat} (start : leaves cursor due count) : Drains page done cursor due := by
  induction count using Nat.strongRecOn generalizing cursor due with
  | ind count ih =>
      obtain ⟨items, next, listed, ⟨rfl, rfl⟩ | ⟨open_, rest, fewer, rfl, less, later⟩⟩ := step start
      · exact .last listed
      · exact .more listed open_ (ih fewer less later)

theorem Drains.mono (drains : Drains page done cursor items)
    (implied : ∀ {cursor items next}, page cursor items next → page' cursor items next) :
    Drains page' done cursor items := by
  induction drains with
  | last listed => exact .last (implied listed)
  | more listed open_ _ ih => exact .more (implied listed) open_ ih

namespace Table

variable [Ord κ] [Std.TransOrd κ] (table : Table κ α) (keep : α → Bool)

def after (cursor : κ) : List (κ × α) :=
  table.toList.filter fun entry => compare entry.1 cursor == .gt && keep entry.2

/-- The page after a cursor, and the cursor of the next one. -/
def PageAfter (limit : Nat) (done : κ) (cursor : κ) (items : List α) (next : κ) : Prop :=
  items = ((table.after keep cursor).take limit).map Prod.snd ∧
    next = if (table.after keep cursor).length > limit then
      (((table.after keep cursor).take limit).getLast?.map Prod.fst).getD done else done

variable {table keep}

theorem after_pairwise (table : Table κ α) (keep : α → Bool) (cursor : κ) :
    (table.after keep cursor).Pairwise fun left right => compare left.1 right.1 = .lt := by
  have sorted := toList_pairwise table
  rw [pairwise_map] at sorted
  exact sorted.filter _

theorem after_gt (member : (key, row) ∈ table.after keep cursor) : compare key cursor = .gt := by
  have kept := (mem_filter.mp member).2
  rw [Bool.and_eq_true] at kept
  exact eq_of_beq kept.1

theorem after_eq (split : table.after keep cursor = before ++ (key, row) :: rest) : table.after keep key = rest := by
  have sorted := after_pairwise table keep cursor
  have passed : compare key cursor = .gt := by
    have member : (key, row) ∈ table.after keep cursor := by
      rw [split]
      simp
    exact after_gt member
  have within : table.after keep key = (table.after keep cursor).filter fun entry => compare entry.1 key == .gt := by
    rw [after, after, filter_filter]
    refine filter_congr fun entry _ => ?_
    cases later : compare entry.1 key == .gt with
    | false => simp
    | true =>
        have trans := Std.TransCmp.gt_trans (eq_of_beq later) passed
        simp [trans]
  rw [split, pairwise_append, pairwise_cons] at sorted
  obtain ⟨_, ⟨later, _⟩, earlier⟩ := sorted
  rw [within, split, filter_append, filter_cons]
  have none : before.filter (fun entry => compare entry.1 key == .gt) = [] := by
    rw [filter_eq_nil_iff]
    intro entry member
    simp [earlier entry member (key, row) mem_cons_self]
  have all : rest.filter (fun entry => compare entry.1 key == .gt) = rest := by
    rw [filter_eq_self]
    intro entry member
    simp [Std.OrientedCmp.gt_of_lt (later entry member)]
  rw [none, all]
  simp

/-- A page is the last one, or the next cursor names a row and leaves the rest. -/
theorem pageAfter_step {next : κ} (positive : 0 < limit) (listed : table.PageAfter keep limit done cursor items next) :
    (table.after keep cursor).length ≤ limit ∧ next = done ∨
      limit < (table.after keep cursor).length ∧ (∃ row, (next, row) ∈ table.after keep cursor) ∧
        table.after keep next = (table.after keep cursor).drop limit := by
  obtain ⟨-, rfl⟩ := listed
  by_cases short : (table.after keep cursor).length ≤ limit
  · exact .inl ⟨short, if_neg (by omega)⟩
  · right
    have nonempty : (table.after keep cursor).take limit ≠ [] := by
      rw [← length_pos_iff, length_take]
      omega
    obtain ⟨before, ⟨key, row⟩, taken⟩ : ∃ before last, (table.after keep cursor).take limit = before ++ [last] :=
      ⟨_, _, (dropLast_concat_getLast nonempty).symm⟩
    have split : table.after keep cursor = before ++ (key, row) :: (table.after keep cursor).drop limit := by
      conv_lhs => rw [← take_append_drop limit (table.after keep cursor), taken]
      simp
    rw [if_pos (by omega), taken, getLast?_concat]
    exact ⟨by omega, ⟨row, split ▸ mem_append_cons_self⟩, after_eq split⟩

theorem drains_after (table : Table κ α) (positive : 0 < limit) (least : ∀ key : κ, compare key done ≠ .lt) :
    Drains (table.PageAfter keep limit done) done cursor ((table.after keep cursor).map Prod.snd) := by
  refine Drains.of_step (fun cursor due count =>
    due = (table.after keep cursor).map Prod.snd ∧ count = (table.after keep cursor).length) ?_ ⟨rfl, rfl⟩
  rintro cursor _ _ ⟨rfl, rfl⟩
  have listed : table.PageAfter keep limit done cursor _ _ := ⟨rfl, rfl⟩
  refine ⟨_, _, listed, ?_⟩
  obtain ⟨short, last⟩ | ⟨long, ⟨row, named⟩, rest⟩ := pageAfter_step positive listed
  · exact .inl ⟨last, by rw [take_of_length_le short]⟩
  · refine .inr ⟨?_, _, _, ?_, ?_, rfl, rfl⟩
    · intro same
      rw [same] at named
      exact least cursor (Std.OrientedCmp.lt_of_gt (after_gt named))
    · rw [rest, ← map_append, take_append_drop]
    · rw [rest, length_drop]
      omega

end Table

end Sendplane.Data
