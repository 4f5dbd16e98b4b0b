import Sendplane.Data.Prog
import Sendplane.Data.Threads

namespace Sendplane.Data

open Threads

/-! # Credit

A potential of the store that a program may only raise by what it has lowered it
before.  A pool of programs that start without credit never raises the
potential, however their calls interleave.
-/

namespace Prog

variable {τ σ ε α β : Type} (potential : σ → Nat)

def Affords (post : Nat → α → Prop) : Nat → Prog τ σ ε α → Prop
  | credit, .done value => post credit value
  | credit, .call _ op rest => ∀ store,
      (∃ left, potential (op store).2 + left ≤ potential store + credit ∧ (rest (op store).1).Affords post left) ∧
      ∀ failure, (rest (.error failure)).Affords post credit

variable {potential} {program : Prog τ σ ε α}

theorem Affords.bind {final : Nat → β → Prop} (affords : program.Affords potential post credit)
    (continues : ∀ credit value, post credit value → (next value).Affords potential final credit) :
    (program >>= next).Affords potential final credit := by
  induction program generalizing credit with
  | done value => exact continues credit value affords
  | call tag op rest ih =>
      intro store
      obtain ⟨⟨left, paid, proceeds⟩, fails⟩ := affords store
      exact ⟨⟨left, paid, ih _ proceeds⟩, fun failure => ih _ (fails failure)⟩

theorem Affords.weaken {weaker : Nat → α → Prop} (affords : program.Affords potential post credit)
    (implied : ∀ left value, post left value → weaker left value) : program.Affords potential weaker credit := by
  rw [← bind_done program]
  exact affords.bind implied

theorem affords_query {γ : Type} {look : σ → Except ε γ} {next : Except ε γ → Prog τ σ ε α}
    (continues : ∀ reply, (next reply).Affords potential post credit) :
    (query tag look >>= next).Affords potential post credit :=
  fun _ => ⟨⟨credit, Nat.le_refl _, continues _⟩, fun _ => continues _⟩

theorem affords_invoke {γ : Type} {op : σ → Except ε γ × σ} {next : Except ε γ → Prog τ σ ε α}
    (called : ∀ store, ∃ left, potential (op store).2 + left ≤ potential store + credit ∧
      (next (op store).1).Affords potential post left)
    (failed : ∀ failure, (next (.error failure)).Affords potential post credit) :
    (invoke tag op >>= next).Affords potential post credit :=
  fun store => ⟨called store, failed⟩

theorem Makes.affords (makes : program.Makes fits before)
    (free : ∀ tag effect store, fits tag effect → potential (effect store) ≤ potential store) :
    program.Affords potential (fun left value => left = credit ∧ before value) credit := by
  induction program with
  | done value => exact ⟨rfl, makes⟩
  | call tag op rest ih =>
      intro store
      refine ⟨⟨credit, ?_, ih _ (makes.2.1 store)⟩, fun failure => ih _ (makes.2.2 failure)⟩
      exact Nat.add_le_add_right (free tag _ store makes.1) credit

theorem affords_advance {current rest : Prog τ σ ε α} {failure : Option ε}
    (affords : current.Affords potential post credit)
    (moved : current.advance failure before = some (tag, rest, after)) :
    ∃ left, potential after + left ≤ potential before + credit ∧ rest.Affords potential post left := by
  cases current with
  | done value => simp [advance] at moved
  | call label op continuation =>
      obtain ⟨succeeds, fails⟩ := affords before
      cases failure with
      | none =>
          obtain ⟨rfl, rfl, rfl⟩ := moved
          exact succeeds
      | some reason =>
          obtain ⟨rfl, rfl, rfl⟩ := moved
          exact ⟨credit, Nat.le_refl _, fails reason⟩

end Prog

namespace Pool

variable {τ σ ε ο : Type} {potential : σ → Nat} {bound : Nat} {pool : Pool τ σ ε}

/-- The potential and the credit of all threads stay within the bound. -/
def Solvent (potential : σ → Nat) (bound : Nat) (pool : Pool τ σ ε) : Prop :=
  ∃ accounts : List (Nat × Prog τ σ ε Unit), accounts.map Prod.snd = pool.threads ∧
    (∀ account ∈ accounts, account.2.Affords potential (fun _ _ => True) account.1) ∧
    potential pool.store + Threads.total Prod.fst accounts ≤ bound

theorem solvent_step {move : Move ο ε}
    (spawned : ∀ operation, (program operation).Affords potential (fun _ _ => True) 0)
    (solvent : pool.Solvent potential bound) (stepped : (system program).step pool move = some next) :
    next.Solvent potential bound := by
  obtain ⟨accounts, threads, affords, covered⟩ := solvent
  cases move with
  | spawn operation =>
      cases stepped
      refine ⟨accounts ++ [(0, program operation)], by simp [threads], ?_, ?_⟩
      · intro account member
        rcases List.mem_append.mp member with existing | new
        · exact affords account existing
        · obtain rfl := List.mem_singleton.mp new
          exact spawned operation
      · simpa [total_append] using covered
  | advance thread failure =>
      obtain ⟨current, tag, rest, found, moved, after⟩ := advance_cases stepped
      rw [← threads, List.getElem?_map] at found
      obtain ⟨⟨credit, program⟩, place, rfl⟩ := Option.map_eq_some_iff.mp found
      obtain ⟨left, paid, continues⟩ := Prog.affords_advance (affords _ (List.mem_of_getElem? place)) moved
      refine ⟨accounts.set thread (left, rest), by rw [List.map_set, threads, after], ?_, ?_⟩
      · intro account member
        rcases List.mem_or_eq_of_mem_set member with existing | rfl
        · exact affords account existing
        · exact continues
      · have total : total Prod.fst (accounts.set thread (left, rest)) + credit =
            total Prod.fst accounts + left := total_set place
        omega

/-- A pool whose operations start without credit never raises the potential. -/
theorem potential_le_of_reachable (spawned : ∀ operation, (program operation).Affords potential (fun _ _ => True) 0)
    (idle : start.threads = []) (reached : (system program).Reachable start pool) :
    potential pool.store ≤ potential start.store := by
  have solvent : pool.Solvent potential (potential start.store) := by
    induction reached with
    | refl => exact ⟨[], idle.symm, by simp, by simp⟩
    | tail _ step ih =>
        obtain ⟨move, _, stepped⟩ := step
        exact solvent_step spawned ih stepped
  obtain ⟨accounts, _, _, covered⟩ := solvent
  omega

end Pool

end Sendplane.Data
