import Sendplane.Data.Prog

namespace Sendplane.Data

/-! # Pools in which every thread keeps an account

An account is what a thread has learned from its own calls.  It has no effect
on the run; conditions on the steps of a run can refer to it.
-/

structure Accounting (τ σ γ : Type) where
  opening : γ
  /-- The account after a call, from the store before and after the call. -/
  enter : γ → τ → σ → σ → γ

structure AccountedPool (τ σ ε γ : Type) : Type 1 where
  store : σ
  threads : List (γ × Prog τ σ ε Unit)

namespace Accounting

variable {τ σ ε γ ο : Type} (accounts : Accounting τ σ γ)

def system (program : ο → Prog τ σ ε Unit) : System (AccountedPool τ σ ε γ) (Move ο ε) where
  step
    | pool, .spawn operation =>
        some { pool with threads := pool.threads ++ [(accounts.opening, program operation)] }
    | pool, .advance thread failure =>
        (pool.threads[thread]?).bind fun (account, current) =>
          (current.advance failure pool.store).map fun (tag, next, store) =>
            { store, threads := pool.threads.set thread (accounts.enter account tag pool.store store, next) }

/-- A call that is answered meets a condition on the caller's account. -/
def Permits (allowed : γ → τ → σ → Prop) (pool : AccountedPool τ σ ε γ) : Move ο ε → Prop
  | .advance thread none => ∀ entry ∈ pool.threads[thread]?, ∀ moved ∈ entry.2.advance none pool.store,
      allowed entry.1 moved.1 pool.store
  | _ => True

instance (allowed : γ → τ → σ → Prop) [∀ account tag store, Decidable (allowed account tag store)]
    (pool : AccountedPool τ σ ε γ) (move : Move ο ε) : Decidable (Permits allowed pool move) :=
  match move with
  | .advance thread none => inferInstanceAs (Decidable (∀ entry ∈ pool.threads[thread]?,
      ∀ moved ∈ entry.2.advance none pool.store, allowed entry.1 moved.1 pool.store))
  | .advance _ (some _) => .isTrue trivial
  | .spawn _ => .isTrue trivial

end Accounting

namespace Prog

variable {τ σ ε γ α β : Type} (accounts : Accounting τ σ γ) (allowed : γ → τ → σ → Prop) (inv : σ → Prop)

/-- Every allowed call of the program keeps the invariant, whatever others did
to the store before it, and the account and value it ends with are as stated. -/
def Tracks (post : γ → α → Prop) : γ → Prog τ σ ε α → Prop
  | account, .done value => post account value
  | account, .call tag op rest => ∀ store, inv store → (allowed account tag store → inv (op store).2 ∧
        (rest (op store).1).Tracks post (accounts.enter account tag store (op store).2)) ∧
      ∀ failure, (rest (.error failure)).Tracks post (accounts.enter account tag store store)

variable {accounts allowed inv} {program : Prog τ σ ε α}

theorem Tracks.bind {final : γ → β → Prop} (tracks : program.Tracks accounts allowed inv post account)
    (continues : ∀ account value, post account value → (next value).Tracks accounts allowed inv final account) :
    (program >>= next).Tracks accounts allowed inv final account := by
  induction program generalizing account with
  | done value => exact continues account value tracks
  | call tag op rest ih =>
      intro store holds
      obtain ⟨succeeds, fails⟩ := tracks store holds
      refine ⟨fun permitted => ?_, fun failure => ih _ (fails failure)⟩
      obtain ⟨kept, proceeds⟩ := succeeds permitted
      exact ⟨kept, ih _ proceeds⟩

theorem Tracks.weaken {weaker : γ → α → Prop} (tracks : program.Tracks accounts allowed inv post account)
    (implied : ∀ account value, post account value → weaker account value) :
    program.Tracks accounts allowed inv weaker account := by
  rw [← bind_done program]
  exact tracks.bind implied

variable {γ' : Type}

theorem tracks_query {next : Except ε γ' → Prog τ σ ε α}
    (answered : ∀ store, inv store →
      (next (look store)).Tracks accounts allowed inv post (accounts.enter account tag store store))
    (failed : ∀ store failure, inv store →
      (next (.error failure)).Tracks accounts allowed inv post (accounts.enter account tag store store)) :
    (query tag look >>= next).Tracks accounts allowed inv post account :=
  fun store holds => ⟨fun _ => ⟨holds, answered store holds⟩, fun failure => failed store failure holds⟩

theorem tracks_invoke {next : Except ε γ' → Prog τ σ ε α}
    (called : ∀ store, inv store → allowed account tag store → inv (op store).2 ∧
      (next (op store).1).Tracks accounts allowed inv post (accounts.enter account tag store (op store).2))
    (failed : ∀ store failure, inv store →
      (next (.error failure)).Tracks accounts allowed inv post (accounts.enter account tag store store)) :
    (invoke tag op >>= next).Tracks accounts allowed inv post account :=
  fun store holds => ⟨called store holds, fun failure => failed store failure holds⟩

end Prog

namespace Accounting

variable {τ σ ε γ ο : Type} {accounts : Accounting τ σ γ} {allowed : γ → τ → σ → Prop} {inv : σ → Prop}
  {pool : AccountedPool τ σ ε γ}

/-- Every thread keeps its account in a store that satisfies the invariant. -/
structure Balanced (accounts : Accounting τ σ γ) (allowed : γ → τ → σ → Prop) (inv : σ → Prop)
    (pool : AccountedPool τ σ ε γ) : Prop where
  holds : inv pool.store
  tracks : ∀ entry ∈ pool.threads, entry.2.Tracks accounts allowed inv (fun _ _ => True) entry.1

theorem balanced_step
    (spawned : ∀ operation, (program operation).Tracks accounts allowed inv (fun _ _ => True) accounts.opening)
    (balanced : Balanced accounts allowed inv pool) (permitted : Permits allowed pool move)
    (stepped : (accounts.system program).step pool move = some next) : Balanced accounts allowed inv next := by
  cases move with
  | spawn operation =>
      cases stepped
      refine ⟨balanced.holds, ?_⟩
      intro entry member
      rcases List.mem_append.mp member with existing | new
      · exact balanced.tracks entry existing
      · obtain rfl := List.mem_singleton.mp new
        exact spawned operation
  | advance thread failure =>
      obtain ⟨⟨account, current⟩, found, advanced⟩ := Option.bind_eq_some_iff.mp stepped
      obtain ⟨_, moved, rfl⟩ := Option.map_eq_some_iff.mp advanced
      have tracks := balanced.tracks _ (List.mem_of_getElem? found)
      have others {entry : γ × Prog τ σ ε Unit} (tracks : entry.2.Tracks accounts allowed inv (fun _ _ => True) entry.1) :
          ∀ other ∈ pool.threads.set thread entry, other.2.Tracks accounts allowed inv (fun _ _ => True) other.1 := by
        intro other member
        rcases List.mem_or_eq_of_mem_set member with existing | rfl
        · exact balanced.tracks other existing
        · exact tracks
      cases current with
      | done value => cases moved
      | call tag op rest =>
          obtain ⟨succeeds, fails⟩ := tracks pool.store balanced.holds
          cases failure with
          | none =>
              cases moved
              obtain ⟨kept, continues⟩ := succeeds (permitted _ found _ rfl)
              exact ⟨kept, others continues⟩
          | some reason =>
              cases moved
              exact ⟨balanced.holds, others (fails reason)⟩

/-- An invariant that every program keeps in its allowed calls holds in every
state that a pool reaches by allowed steps. -/
theorem invariant_of_reaches
    (spawned : ∀ operation, (program operation).Tracks accounts allowed inv (fun _ _ => True) accounts.opening)
    (idle : start.threads = []) (initial : inv start.store)
    (reached : (accounts.system program).Reaches (Permits allowed) start pool) : inv pool.store := by
  have balanced : Balanced accounts allowed inv start := ⟨initial, by simp [idle]⟩
  apply Balanced.holds
  refine reached.invariant balanced ?_
  intro before move after balanced permitted stepped
  exact balanced_step spawned balanced permitted stepped

end Accounting

end Sendplane.Data
