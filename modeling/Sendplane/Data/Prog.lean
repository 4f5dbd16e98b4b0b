import Sendplane.Data.System

namespace Sendplane.Data

open List

/-! # Programs over a shared store

`Prog` is a client of a store that is only touched by atomic calls.  It has a
sequential meaning, in which a plan decides which calls fail, and a concurrent
one, in which a pool interleaves the calls of any number of programs.
`Respects` is a rely-guarantee judgement for the latter.
-/

/-- A call carries a tag that says who calls what.  The tag has no effect; it
is what conditions and guarantees on the steps of a run refer to. -/
inductive Prog (τ σ ε : Type) (α : Type) : Type 1 where
  | done (value : α)
  | call {β : Type} (tag : τ) (op : σ → Except ε β × σ) (rest : Except ε β → Prog τ σ ε α)

namespace Prog

variable {τ σ ε α β : Type}

def bind : Prog τ σ ε α → (α → Prog τ σ ε β) → Prog τ σ ε β
  | .done value, next => next value
  | .call tag op rest, next => .call tag op fun reply => (rest reply).bind next

instance : Monad (Prog τ σ ε) where
  pure := .done
  bind := bind

def invoke (tag : τ) (op : σ → Except ε β × σ) : Prog τ σ ε (Except ε β) :=
  .call tag op .done

def query (tag : τ) (look : σ → Except ε β) : Prog τ σ ε (Except ε β) :=
  .call tag (fun store => (look store, store)) .done

def discard (program : Prog τ σ ε α) : Prog τ σ ε Unit :=
  program >>= fun _ => pure ()

@[simp] theorem pure_eq (value : α) : (pure value : Prog τ σ ε α) = .done value := rfl

@[simp] theorem done_bind (next : α → Prog τ σ ε β) : (Prog.done value : Prog τ σ ε α) >>= next = next value := rfl

theorem bind_done (program : Prog τ σ ε α) : program >>= Prog.done = program := by
  induction program with
  | done value => rfl
  | call tag op rest ih => exact congrArg (Prog.call tag op) (funext ih)

variable {γ : Type}

@[simp] theorem call_bind (rest : Except ε γ → Prog τ σ ε α) (next : α → Prog τ σ ε β) :
    Prog.call tag op rest >>= next = .call tag op fun reply => rest reply >>= next := rfl

@[simp] theorem invoke_bind (tag : τ) (op : σ → Except ε γ × σ) (next : Except ε γ → Prog τ σ ε β) :
    invoke tag op >>= next = .call tag op next := rfl

@[simp] theorem query_bind (tag : τ) (look : σ → Except ε γ) (next : Except ε γ → Prog τ σ ε β) :
    query tag look >>= next = .call tag (fun store => (look store, store)) next := rfl

/-- Every call the program can make fits, whichever stores answer its calls,
and so does the value it ends with. -/
def Makes (fits : τ → (σ → σ) → Prop) (post : α → Prop) : Prog τ σ ε α → Prop
  | .done value => post value
  | .call tag op rest => fits tag (fun store => (op store).2) ∧ (∀ store, (rest (op store).1).Makes fits post) ∧
      ∀ failure, (rest (.error failure)).Makes fits post

section

variable {program : Prog τ σ ε α}

theorem Makes.bind {next : α → Prog τ σ ε β} (makes : program.Makes fits before)
    (continues : ∀ value, before value → (next value).Makes fits post) : (program >>= next).Makes fits post := by
  induction program with
  | done value => exact continues value makes
  | call tag op rest ih =>
      exact ⟨makes.1, fun store => ih _ (makes.2.1 store), fun failure => ih _ (makes.2.2 failure)⟩

theorem Makes.weaken (makes : program.Makes fits before) (implied : ∀ value, before value → weaker value) :
    program.Makes fits weaker := by
  rw [← bind_done program]
  exact makes.bind implied

theorem Makes.widen (makes : program.Makes fits before) (implied : ∀ tag effect, fits tag effect → wider tag effect) :
    program.Makes wider before := by
  induction program with
  | done value => exact makes
  | call tag op rest ih =>
      exact ⟨implied tag _ makes.1, fun store => ih _ (makes.2.1 store), fun failure => ih _ (makes.2.2 failure)⟩

variable {γ : Type}

theorem makes_invoke {next : Except ε γ → Prog τ σ ε β} (fit : fits tag fun store => (op store).2)
    (continues : ∀ reply, (next reply).Makes fits post) : (invoke tag op >>= next).Makes fits post :=
  ⟨fit, fun _ => continues _, fun _ => continues _⟩

theorem makes_query {next : Except ε γ → Prog τ σ ε β} (fit : fits tag id)
    (continues : ∀ reply, (∀ value, reply = .ok value → ∃ store, look store = .ok value) → (next reply).Makes fits post) :
    (query tag look >>= next).Makes fits post :=
  ⟨fit, fun store => continues _ fun _ same => ⟨store, same⟩, fun _ => continues _ fun _ same => by cases same⟩

end

/-- Runs a program alone.  `plan` says which calls fail, by position; a call
that fails leaves the store as it is. -/
def run : Prog τ σ ε α → (Nat → Option ε) → σ → α × σ
  | .done value, _, store => (value, store)
  | .call _ op rest, plan, store =>
      match plan 0 with
      | some failure => (rest (.error failure)).run (fun n => plan (n + 1)) store
      | none => (rest (op store).1).run (fun n => plan (n + 1)) (op store).2

@[simp] theorem run_done : (Prog.done value : Prog τ σ ε α).run plan store = (value, store) := rfl

theorem run_call (tag : τ) (op : σ → Except ε γ × σ) (rest : Except ε γ → Prog τ σ ε α) (plan : Nat → Option ε)
    (store : σ) :
    (Prog.call tag op rest).run plan store = match plan 0 with
      | some failure => (rest (.error failure)).run (fun n => plan (n + 1)) store
      | none => (rest (op store).1).run (fun n => plan (n + 1)) (op store).2 := by
  rw [run]

def exec (program : Prog τ σ ε α) (store : σ) : α × σ :=
  program.run (fun _ => none) store

@[simp] theorem exec_done : (Prog.done value : Prog τ σ ε α).exec store = (value, store) := rfl

@[simp] theorem exec_call (tag : τ) (op : σ → Except ε γ × σ) (rest : Except ε γ → Prog τ σ ε α) (store : σ) :
    (Prog.call tag op rest).exec store = (rest (op store).1).exec (op store).2 := by
  simp [exec, run]

theorem exec_bind (program : Prog τ σ ε α) (next : α → Prog τ σ ε β) (store : σ) :
    (program >>= next).exec store = (next (program.exec store).1).exec (program.exec store).2 := by
  induction program generalizing store with
  | done value => rfl
  | call tag op rest ih =>
      rw [call_bind, exec_call, exec_call, ih]

/-- The next call of a program, with its tag; a failing call has no effect. -/
def advance (failure : Option ε) (store : σ) : Prog τ σ ε α → Option (τ × Prog τ σ ε α × σ)
  | .done _ => none
  | .call tag op rest =>
      match failure with
      | some reason => some (tag, rest (.error reason), store)
      | none => some (tag, rest (op store).1, (op store).2)

end Prog

structure Pool (τ σ ε : Type) : Type 1 where
  store : σ
  threads : List (Prog τ σ ε Unit)

/-- A pool either starts an operation or lets one thread make its next call. -/
inductive Move (ο ε : Type) where
  | spawn (operation : ο)
  | advance (thread : Nat) (failure : Option ε)

namespace Pool

variable {τ σ ε ο : Type}

def system (program : ο → Prog τ σ ε Unit) : System (Pool τ σ ε) (Move ο ε) where
  step
    | pool, .spawn operation =>
        some { pool with threads := pool.threads ++ [program operation] }
    | pool, .advance thread failure =>
        (pool.threads[thread]?).bind fun current =>
          (current.advance failure pool.store).map fun (_, next, store) =>
            { store, threads := pool.threads.set thread next }

def nextCall (pool : Pool τ σ ε) : Move ο ε → Option (τ × Option ε)
  | .spawn _ => none
  | .advance thread failure =>
      ((pool.threads[thread]?).bind (Prog.advance failure pool.store)).map
        fun moved => (moved.1, failure)

/-- The step satisfies a condition on its tag, its failure and the store. -/
def Permits (allowed : τ → Option ε → σ → Prop) (pool : Pool τ σ ε) (move : Move ο ε) : Prop :=
  ∀ call ∈ pool.nextCall move, allowed call.1 call.2 pool.store

instance (allowed : τ → Option ε → σ → Prop) [∀ tag failure store, Decidable (allowed tag failure store)]
    (pool : Pool τ σ ε) (move : Move ο ε) : Decidable (pool.Permits allowed move) :=
  inferInstanceAs (Decidable (∀ call ∈ pool.nextCall move, allowed call.1 call.2 pool.store))

theorem nextCall_advance {pool : Pool τ σ ε} {failure : Option ε} {store : σ}
    (found : pool.threads[thread]? = some current)
    (moved : current.advance failure pool.store = some (tag, rest, store)) :
    pool.nextCall (.advance thread failure : Move ο ε) = some (tag, failure) := by
  simp [nextCall, found, moved]

end Pool

/-- What is agreed between the threads of a pool: the calls that are allowed
to happen, and what every allowed call does to the store. -/
structure Discipline (τ σ ε : Type) where
  allowed : τ → Option ε → σ → Prop
  guarantee : τ → σ → σ → Prop

namespace Discipline

variable {τ σ ε : Type} (agreed : Discipline τ σ ε)

def Effect (tag : τ) : Option ε → σ → σ → Prop
  | none, before, after => agreed.guarantee tag before after
  | some _, before, after => after = before

/-- What the other threads may do between two calls of a thread. -/
def Interferes : σ → σ → Prop :=
  Relation.ReflTransGen fun before after => ∃ tag, agreed.guarantee tag before after

/-- A state predicate that no guaranteed step destroys. -/
def Stable (fact : σ → Prop) : Prop :=
  ∀ tag before after, agreed.guarantee tag before after → fact before → fact after

variable {agreed}

theorem Stable.interferes (stable : agreed.Stable fact) {before after : σ}
    (meanwhile : agreed.Interferes before after) (holds : fact before) : fact after := by
  induction meanwhile with
  | refl => exact holds
  | tail _ step ih =>
      obtain ⟨tag, guaranteed⟩ := step
      exact stable tag _ _ guaranteed ih

theorem Stable.and (leftStable : agreed.Stable left) (rightStable : agreed.Stable right) :
    agreed.Stable fun store => left store ∧ right store :=
  fun tag before after guaranteed both =>
    ⟨leftStable tag before after guaranteed both.1, rightStable tag before after guaranteed both.2⟩

theorem Stable.forall {fact : ι → σ → Prop} (stable : ∀ index, agreed.Stable (fact index)) :
    agreed.Stable fun store => ∀ index, fact index store :=
  fun tag before after guaranteed all index =>
    stable index tag before after guaranteed (all index)

end Discipline

namespace Prog

variable {τ σ ε α β : Type} (agreed : Discipline τ σ ε)

/-- Every allowed call of the program, made after any interference, keeps the
guarantee, and the postcondition holds when the program is done. -/
def Respects : Prog τ σ ε α → (α → σ → Prop) → σ → Prop
  | .done value, post, store => ∀ now, agreed.Interferes store now → post value now
  | .call tag op rest, post, store => ∀ now, agreed.Interferes store now → (agreed.allowed tag none now →
        agreed.guarantee tag now (op now).2 ∧ (rest (op now).1).Respects post (op now).2) ∧
      ∀ failure, agreed.allowed tag (some failure) now → (rest (.error failure)).Respects post now

variable {agreed} {post : α → σ → Prop} {store : σ}

variable {program : Prog τ σ ε α}

section

variable (respects : program.Respects agreed post store)
include respects

theorem Respects.later {now : σ} (meanwhile : agreed.Interferes store now) : program.Respects agreed post now := by
  cases program with
  | done value => exact fun after rest => respects after (meanwhile.trans rest)
  | call tag op rest => exact fun after tail => respects after (meanwhile.trans tail)

/-- A fact that holds from here on still holds when a respecting program is
done, because the program's own calls keep the guarantee. -/
theorem Respects.keeps {fact : σ → Prop} (holds : ∀ now, agreed.Interferes store now → fact now) :
    program.Respects agreed (fun value now => post value now ∧ fact now) store := by
  induction program generalizing post store with
  | done value => exact fun now meanwhile => ⟨respects now meanwhile, holds now meanwhile⟩
  | call tag op rest ih =>
      intro now meanwhile
      obtain ⟨succeeds, fails⟩ := respects now meanwhile
      refine ⟨fun allowed => ?_, fun failure allowed => ?_⟩
      · obtain ⟨guaranteed, continues⟩ := succeeds allowed
        refine ⟨guaranteed, ih _ continues fun after tail => holds after ?_⟩
        exact (meanwhile.tail ⟨tag, guaranteed⟩).trans tail
      · exact ih _ (fails failure allowed) fun after tail => holds after (meanwhile.trans tail)

end

variable {next : α → Prog τ σ ε β}

section

variable (respects : program.Respects agreed post store)
include respects

theorem Respects.bind (continues : ∀ value now, post value now → (next value).Respects agreed final now) :
    (program >>= next).Respects agreed final store := by
  induction program generalizing store with
  | done value => exact continues value store (respects store .refl)
  | call tag op rest ih =>
      intro now meanwhile
      obtain ⟨succeeds, fails⟩ := respects now meanwhile
      refine ⟨fun allowed => ?_, fun failure allowed => ih _ (fails failure allowed)⟩
      obtain ⟨guaranteed, proceeds⟩ := succeeds allowed
      exact ⟨guaranteed, ih _ proceeds⟩

/-- Sequential composition past a program that does not destroy a fact. -/
theorem Respects.bindKeeping (stable : agreed.Stable fact) (holds : fact store)
    (continues : ∀ value now, post value now → fact now → (next value).Respects agreed final now) :
    (program >>= next).Respects agreed final store :=
  (respects.keeps fun _ meanwhile => stable.interferes meanwhile holds).bind
    fun value now both => continues value now both.1 both.2

end

variable {next : Except ε β → Prog τ σ ε α}

theorem respects_query (quiet : ∀ now, agreed.guarantee tag now now)
    (answered : ∀ now, agreed.Interferes store now → (next (look now)).Respects agreed post now)
    (failed : ∀ now failure, agreed.Interferes store now → agreed.allowed tag (some failure) now →
      (next (.error failure)).Respects agreed post now) : (query tag look >>= next).Respects agreed post store :=
  fun now meanwhile => ⟨fun _ => ⟨quiet now, answered now meanwhile⟩, fun failure => failed now failure meanwhile⟩

theorem respects_invoke
    (called : ∀ now, agreed.Interferes store now → agreed.allowed tag none now →
      agreed.guarantee tag now (op now).2 ∧ (next (op now).1).Respects agreed post (op now).2)
    (failed : ∀ now failure, agreed.Interferes store now → agreed.allowed tag (some failure) now →
      (next (.error failure)).Respects agreed post now) : (invoke tag op >>= next).Respects agreed post store :=
  fun now meanwhile => ⟨called now meanwhile, fun failure => failed now failure meanwhile⟩

/-- A program whose calls keep the guarantee from any store needs no
knowledge of what happened in between. -/
theorem Makes.respects (makes : program.Makes fits before)
    (guaranteed : ∀ tag effect now, fits tag effect → agreed.allowed tag none now →
      agreed.guarantee tag now (effect now)) : program.Respects agreed (fun _ _ => True) store := by
  induction program generalizing store with
  | done value => exact fun _ _ => trivial
  | call tag op rest ih =>
      intro now _
      refine ⟨fun allowed => ?_, fun failure _ => ih _ (makes.2.2 failure)⟩
      exact ⟨guaranteed tag _ now makes.1 allowed, ih _ (makes.2.1 now)⟩

end Prog

namespace Pool

variable {τ σ ε ο : Type} {agreed : Discipline τ σ ε} {program : ο → Prog τ σ ε Unit}
  {inv : σ → Prop} {pool next : Pool τ σ ε}

/-- Every thread respects the discipline in the present store. -/
def Disciplined (agreed : Discipline τ σ ε) (pool : Pool τ σ ε) : Prop :=
  ∀ thread ∈ pool.threads, thread.Respects agreed (fun _ _ => True) pool.store

variable {failure : Option ε}

theorem advance_cases (stepped : (system program).step pool (.advance thread failure) = some next) :
    ∃ current tag rest, pool.threads[thread]? = some current ∧
      current.advance failure pool.store = some (tag, rest, next.store) ∧
      next.threads = pool.threads.set thread rest := by
  obtain ⟨current, found, advanced⟩ := Option.bind_eq_some_iff.mp stepped
  obtain ⟨⟨tag, rest, store⟩, moved, rfl⟩ := Option.map_eq_some_iff.mp advanced
  exact ⟨current, tag, rest, found, moved, rfl⟩

variable {tag : τ}

/-- One allowed call of a respecting program keeps the guarantee and leaves a
program that still respects it. -/
theorem respects_advance {α : Type} {current rest : Prog τ σ ε α} {post : α → σ → Prop} {before after : σ}
    (respects : current.Respects agreed post before)
    (moved : current.advance failure before = some (tag, rest, after)) (allowed : agreed.allowed tag failure before) :
    agreed.Interferes before after ∧ agreed.Effect tag failure before after ∧ rest.Respects agreed post after := by
  cases current with
  | done value => simp [Prog.advance] at moved
  | call label op continuation =>
      obtain ⟨succeeds, fails⟩ := respects before .refl
      cases failure with
      | none =>
          simp only [Prog.advance, Option.some.injEq, Prod.mk.injEq] at moved
          obtain ⟨rfl, rfl, rfl⟩ := moved
          obtain ⟨guaranteed, continues⟩ := succeeds allowed
          exact ⟨.single ⟨label, guaranteed⟩, guaranteed, continues⟩
      | some reason =>
          obtain ⟨rfl, rfl, rfl⟩ := moved
          exact ⟨.refl, rfl, fails reason allowed⟩

variable {move : Move ο ε}

theorem disciplined_step (spawned : ∀ operation store, inv store →
      (program operation).Respects agreed (fun _ _ => True) store) (holds : inv pool.store)
    (disciplined : pool.Disciplined agreed) (permitted : pool.Permits agreed.allowed move)
    (stepped : (system program).step pool move = some next) :
    agreed.Interferes pool.store next.store ∧ next.Disciplined agreed := by
  cases move with
  | spawn operation =>
      simp only [system, Option.some.injEq] at stepped
      subst stepped
      refine ⟨.refl, fun thread member => ?_⟩
      rcases mem_append.mp member with existing | new
      · exact disciplined thread existing
      · obtain rfl := mem_singleton.mp new
        exact spawned operation pool.store holds
  | advance thread failure =>
      obtain ⟨current, tag, rest, found, moved, threads⟩ := advance_cases stepped
      obtain ⟨meanwhile, _, continues⟩ := respects_advance
        (disciplined current (mem_of_getElem? found)) moved
        (permitted _ (nextCall_advance found moved))
      refine ⟨meanwhile, fun other member => ?_⟩
      rw [threads] at member
      rcases mem_or_eq_of_mem_set member with existing | rfl
      · exact (disciplined other existing).later meanwhile
      · exact continues

/-- The rely-guarantee rule: if every operation keeps to the agreement from any
state of the invariant, then a permitted run of a disciplined pool only
interferes as agreed, and leaves the pool disciplined. -/
theorem interferes_of_reaches (spawned : ∀ operation store, inv store →
      (program operation).Respects agreed (fun _ _ => True) store) (stable : agreed.Stable inv)
    (disciplined : start.Disciplined agreed) (initial : inv start.store)
    (reached : (system program).Reaches (Permits agreed.allowed) start pool) :
    agreed.Interferes start.store pool.store ∧ pool.Disciplined agreed := by
  induction reached with
  | refl => exact ⟨.refl, disciplined⟩
  | tail _ step ih =>
      obtain ⟨move, permitted, stepped⟩ := step
      obtain ⟨meanwhile, next⟩ := disciplined_step spawned (stable.interferes ih.1 initial) ih.2
        permitted stepped
      exact ⟨ih.1.trans meanwhile, next⟩

theorem disciplined_of_reaches (spawned : ∀ operation store, inv store →
      (program operation).Respects agreed (fun _ _ => True) store) (stable : agreed.Stable inv)
    (idle : start.threads = []) (initial : inv start.store)
    (reached : (system program).Reaches (Permits agreed.allowed) start pool) :
    inv pool.store ∧ pool.Disciplined agreed := by
  have disciplined : start.Disciplined agreed := by simp [Disciplined, idle]
  obtain ⟨meanwhile, final⟩ := interferes_of_reaches spawned stable disciplined initial reached
  exact ⟨stable.interferes meanwhile initial, final⟩

/-- A permitted call in a disciplined pool keeps the guarantee of its tag, and
has no effect if it fails. -/
theorem guarantee_of_advance (disciplined : pool.Disciplined agreed)
    (permitted : pool.Permits agreed.allowed (.advance thread failure : Move ο ε))
    (stepped : (system program).step pool (.advance thread failure) = some next) :
    ∃ tag, pool.nextCall (.advance thread failure : Move ο ε) = some (tag, failure) ∧
      agreed.Effect tag failure pool.store next.store := by
  obtain ⟨current, tag, rest, found, moved, _⟩ := advance_cases stepped
  obtain ⟨_, guaranteed, _⟩ := respects_advance
    (disciplined current (mem_of_getElem? found)) moved
    (permitted _ (nextCall_advance found moved))
  exact ⟨tag, nextCall_advance found moved, guaranteed⟩

end Pool

end Sendplane.Data
