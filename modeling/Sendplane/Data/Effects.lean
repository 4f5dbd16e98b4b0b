import Sendplane.Data.Faults

namespace Sendplane.Data

/-! # What a program does, and what it can see

`Acts` is a program among others that do to the store whatever they like: it
keeps the effects of its own calls only.  `Blind` says that no call of a program
tells two related stores apart.
-/

namespace Prog

variable {τ σ ε α β : Type}

/-- The program can end with the value when its calls have these effects, each
on whatever store it meets. -/
def Acts : Prog τ σ ε α → List (σ × σ) → α → Prop
  | .done result, effects, value => effects = [] ∧ value = result
  | .call _ op rest, effects, value => ∃ store later,
      (effects = (store, (op store).2) :: later ∧ (rest (op store).1).Acts later value) ∨
      (effects = (store, store) :: later ∧ ∃ failure, (rest (.error failure)).Acts later value)

/-- Nothing was changed. -/
def Idle (effects : List (σ × σ)) : Prop :=
  ∀ effect ∈ effects, effect.2 = effect.1

@[simp] theorem idle_nil : Idle ([] : List (σ × σ)) := by
  simp [Idle]

@[simp] theorem idle_cons : Idle (effect :: rest) ↔ effect.2 = effect.1 ∧ Idle rest := by
  simp [Idle]

/-- One after the other, the effects lead from the first store to the last. -/
def Chained : σ → List (σ × σ) → σ → Prop
  | first, [], last => last = first
  | first, (before, after) :: rest, last => before = first ∧ Chained after rest last

variable {before after : σ}

theorem Chained.last {first last : σ} (chained : Chained first (framing ++ [(before, after)]) last)
    (idle : Idle framing) : before = first ∧ last = after := by
  induction framing generalizing first with
  | nil => exact chained
  | cons effect rest ih =>
      obtain ⟨rfl, continues⟩ := chained
      rw [idle_cons] at idle
      obtain ⟨start, ends⟩ := ih continues idle.2
      exact ⟨start.trans idle.1, ends⟩

variable {program : Prog τ σ ε α}

theorem acts_of_run (ran : program.run plan before = (value, after)) :
    ∃ effects, program.Acts effects value ∧ Chained before effects after := by
  induction program generalizing before plan with
  | done result =>
      cases ran
      exact ⟨[], ⟨rfl, rfl⟩, rfl⟩
  | call tag op rest ih =>
      rw [run_call] at ran
      cases planned : plan 0 with
      | none =>
          simp only [planned] at ran
          obtain ⟨effects, acts, chained⟩ := ih _ ran
          exact ⟨(before, (op before).2) :: effects, ⟨before, effects, .inl ⟨rfl, acts⟩⟩, rfl, chained⟩
      | some failure =>
          simp only [planned] at ran
          obtain ⟨effects, acts, chained⟩ := ih _ ran
          exact ⟨(before, before) :: effects, ⟨before, effects, .inr ⟨rfl, failure, acts⟩⟩, rfl, chained⟩

/-- A program that ends with an error has changed nothing itself. -/
def FailsClean (program : Prog τ σ ε (Except ε α)) : Prop :=
  ∀ effects failure, program.Acts effects (.error failure) → Idle effects

/-- After a success only the last effect has changed a store, and that change is
a swap; after a failure none has. -/
def Committed (swap : σ → σ → Prop) (effects : List (σ × σ)) : Except ε α → Prop
  | .ok _ => ∃ framing before after, effects = framing ++ [(before, after)] ∧ Idle framing ∧ swap before after
  | .error _ => Idle effects

def Commits (swap : σ → σ → Prop) (program : Prog τ σ ε (Except ε α)) : Prop :=
  ∀ effects reply, program.Acts effects reply → Committed swap effects reply

theorem Commits.failsClean {program : Prog τ σ ε (Except ε α)} (commits : program.Commits swap) : program.FailsClean :=
  fun effects failure acts => commits effects (.error failure) acts

theorem Commits.run {program : Prog τ σ ε (Except ε α)} (commits : program.Commits swap)
    (ran : program.run plan before = (.ok value, after)) : swap before after := by
  obtain ⟨effects, acts, chained⟩ := acts_of_run ran
  obtain ⟨framing, first, last, rfl, idle, swapped⟩ := commits effects (.ok value) acts
  obtain ⟨rfl, rfl⟩ := chained.last idle
  exact swapped

theorem commits_refuse (failure : ε) : (Prog.done (.error failure) : Prog τ σ ε (Except ε α)).Commits swap := by
  rintro effects reply ⟨rfl, rfl⟩
  exact idle_nil

variable {γ : Type}

/-- A call that changes nothing may come before the rest of the program, and one
that swaps must be the last. -/
theorem commits_call {rest : Except ε γ → Prog τ σ ε (Except ε α)}
    (answered : ∀ store, (op store).2 = store ∧ (rest (op store).1).Commits swap ∨ swap store (op store).2 ∧
      ∃ value, rest (op store).1 = .done (.ok value))
    (failed : ∀ failure, (rest (.error failure)).Commits swap) : (Prog.call tag op rest).Commits swap := by
  -- An effect that changes nothing, before a program that commits.
  have frame {store after : σ} {later : List (σ × σ)} {reply : Except ε α} (kept : after = store)
      (committed : Committed swap later reply) : Committed swap ((store, after) :: later) reply := by
    cases reply with
    | error failure => exact idle_cons.mpr ⟨kept, committed⟩
    | ok value =>
        obtain ⟨framing, before, last, rfl, idle, swapped⟩ := committed
        exact ⟨(store, after) :: framing, before, last, rfl, idle_cons.mpr ⟨kept, idle⟩, swapped⟩
  rintro effects reply ⟨store, later, ⟨rfl, continues⟩ | ⟨rfl, reason, continues⟩⟩
  · rcases answered store with ⟨kept, commits⟩ | ⟨swapped, value, succeeds⟩
    · exact frame kept (commits later reply continues)
    · rw [succeeds] at continues
      obtain ⟨rfl, rfl⟩ := continues
      exact ⟨[], store, _, rfl, idle_nil, swapped⟩
  · exact frame rfl (failed reason later reply continues)

theorem commits_query {rest : Except ε γ → Prog τ σ ε (Except ε α)} (commits : ∀ reply, (rest reply).Commits swap) :
    (query tag look >>= rest).Commits swap :=
  commits_call (fun _ => .inl ⟨rfl, commits _⟩) fun _ => commits _

/-- Programs that are fine make fine programs. -/
structure Composes (fine : {α : Type} → Prog τ σ ε α → Prop) : Prop where
  done : ∀ {α : Type} (value : α), fine (.done value)
  bind : ∀ {α β : Type} {program : Prog τ σ ε α} {next : α → Prog τ σ ε β},
    fine program → (∀ value, fine (next value)) → fine (program >>= next)

theorem composes_makes : Composes fun {_} (program : Prog τ σ ε _) => program.Makes fits fun _ => True where
  done _ := trivial
  bind makes continues := makes.bind fun value _ => continues value

/-- No call of the program, whatever the earlier ones answered, tells related
stores apart. -/
def Blind (same : σ → σ → Prop) : Prog τ σ ε α → Prop
  | .done _ => True
  | .call _ op rest =>
      (∀ left right, same left right → (op left).1 = (op right).1 ∧ same (op left).2 (op right).2) ∧
        (∀ store, (rest (op store).1).Blind same) ∧ ∀ failure, (rest (.error failure)).Blind same

theorem Blind.bind {next : α → Prog τ σ ε β} (blind : program.Blind same)
    (continues : ∀ value, (next value).Blind same) : (program >>= next).Blind same := by
  induction program with
  | done value => exact continues value
  | call tag op rest ih =>
      exact ⟨blind.1, fun store => ih _ (blind.2.1 store), fun failure => ih _ (blind.2.2 failure)⟩

theorem composes_blind : Composes fun {_} (program : Prog τ σ ε _) => program.Blind same where
  done _ := trivial
  bind := Blind.bind

theorem blind_query (seen : ∀ left right, same left right → look left = look right) : (query tag look).Blind same :=
  ⟨fun left right related => ⟨seen left right related, related⟩, fun _ => trivial, fun _ => trivial⟩

/-- A blind program ends alike on related stores, whichever calls fail. -/
theorem Blind.run (blind : program.Blind same) (plan : Nat → Option ε) (related : same left right) :
    (program.run plan left).1 = (program.run plan right).1 := by
  induction program generalizing left right plan with
  | done value => rfl
  | call tag op rest ih =>
      rw [run_call, run_call]
      cases plan 0 with
      | none =>
          obtain ⟨answers, stores⟩ := blind.1 left right related
          rw [answers]
          exact ih _ (blind.2.1 right) _ stores
      | some failure => exact ih _ (blind.2.2 failure) _ related

end Prog

end Sendplane.Data
