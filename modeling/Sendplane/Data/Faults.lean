import Sendplane.Data.Prog

namespace Sendplane.Data

/-! # Programs that run alone on a store that can fail

A run of a program leaves a trace: its calls, each with whether it failed.
Claims about every choice of failing calls quantify over traces.
-/

structure Lens (κ σ : Type) where
  get : κ → σ
  set : σ → κ → κ
  get_set : ∀ part whole, get (set part whole) = part
  set_set : ∀ part other whole, set part (set other whole) = set part whole
  set_get : ∀ whole, set (get whole) whole = whole

def Lens.act {κ σ ε β : Type} (lens : Lens κ σ) (op : σ → Except ε β × σ) (whole : κ) :
    Except ε β × κ :=
  ((op (lens.get whole)).1, lens.set (op (lens.get whole)).2 whole)

namespace Prog

variable {τ σ κ ε α β : Type}

def zoom (lens : Lens κ σ) : Prog τ σ ε α → Prog τ κ ε α
  | .done value => .done value
  | .call tag op rest => .call tag (lens.act op) fun reply => (rest reply).zoom lens

abbrev Trace (τ : Type) := List (τ × Bool)

/-- The program can end with this trace, value and store, when a call fails
only with an error that is a fault of it and then has no effect. -/
def Ends (fault : τ → ε → Prop) : Prog τ σ ε α → σ → Trace τ → α → σ → Prop
  | .done result, before, trace, value, after => trace = [] ∧ value = result ∧ after = before
  | .call tag op rest, before, trace, value, after => ∃ later, (trace = (tag, false) :: later ∧
        (rest (op before).1).Ends fault (op before).2 later value after) ∨
      (trace = (tag, true) :: later ∧
        ∃ failure, fault tag failure ∧ (rest (.error failure)).Ends fault before later value after)

variable {program : Prog τ σ ε α}

theorem ends_error {result : ω} {holds : α → Prop} {reply : Except ω α}
    (ends : (done (.error result) : Prog τ σ ε (Except ω α)).Ends fault before trace reply after) :
    after = before ∧ ∀ value, reply = .ok value → holds value := by
  obtain ⟨-, rfl, rfl⟩ := ends
  exact ⟨rfl, nofun⟩

theorem ends_bind (ends : (program >>= next).Ends fault before trace value after) :
    ∃ first second middle store, trace = first ++ second ∧ program.Ends fault before first middle store ∧
      (next middle).Ends fault store second value after := by
  induction program generalizing before trace with
  | done result => exact ⟨[], trace, result, before, rfl, ⟨rfl, rfl, rfl⟩, ends⟩
  | call tag op rest ih =>
      obtain ⟨later, ⟨rfl, answered⟩ | ⟨rfl, failure, faulty, failed⟩⟩ := ends
      · obtain ⟨first, second, middle, store, rfl, started, finished⟩ := ih _ answered
        exact ⟨(tag, false) :: first, second, middle, store, rfl, ⟨first, .inl ⟨rfl, started⟩⟩, finished⟩
      · obtain ⟨first, second, middle, store, rfl, started, finished⟩ := ih _ failed
        exact ⟨(tag, true) :: first, second, middle, store, rfl, ⟨first, .inr ⟨rfl, failure, faulty, started⟩⟩, finished⟩

theorem Ends.bind {value : α} (starts : program.Ends fault before first value middle)
    (continues : (next value).Ends fault middle second final after) :
    (program >>= next).Ends fault before (first ++ second) final after := by
  induction program generalizing before first with
  | done result =>
      obtain ⟨rfl, rfl, rfl⟩ := starts
      exact continues
  | call tag op rest ih =>
      obtain ⟨later, ⟨rfl, answered⟩ | ⟨rfl, failure, faulty, failed⟩⟩ := starts
      · exact ⟨later ++ second, .inl ⟨rfl, ih _ answered⟩⟩
      · exact ⟨later ++ second, .inr ⟨rfl, failure, faulty, ih _ failed⟩⟩

variable {γ : Type} {tag : τ}

theorem ends_invoke (ends : (invoke tag op >>= next).Ends fault before trace value after) :
    ∃ later, (trace = (tag, false) :: later ∧ (next (op before).1).Ends fault (op before).2 later value after) ∨
      (trace = (tag, true) :: later ∧
        ∃ failure, fault tag failure ∧ (next (.error failure)).Ends fault before later value after) :=
  ends

theorem ends_query (ends : (query tag look >>= next).Ends fault before trace value after) :
    ∃ later, (trace = (tag, false) :: later ∧ (next (look before)).Ends fault before later value after) ∨
      (trace = (tag, true) :: later ∧
        ∃ failure, fault tag failure ∧ (next (.error failure)).Ends fault before later value after) :=
  ends

theorem Ends.query (continues : (next (look before)).Ends fault before later value after) :
    (query tag look >>= next).Ends fault before ((tag, false) :: later) value after :=
  ⟨later, .inl ⟨rfl, continues⟩⟩

theorem ends_once (ends : (invoke tag op).Ends fault before trace reply after) :
    (reply = (op before).1 ∧ after = (op before).2) ∨
      (trace = [(tag, true)] ∧ after = before ∧ ∃ failure, fault tag failure ∧ reply = .error failure) := by
  obtain ⟨later, ⟨rfl, rfl, rfl, rfl⟩ | ⟨rfl, failure, faulty, rfl, rfl, rfl⟩⟩ := ends
  · exact .inl ⟨rfl, rfl⟩
  · exact .inr ⟨rfl, rfl, failure, faulty, rfl⟩

/-- Some call failed. -/
def Failed (trace : Trace τ) : Prop :=
  ∃ tag, (tag, true) ∈ trace

theorem failed_append : Failed (first ++ second) ↔ Failed first ∨ Failed second := by
  simp [Failed, exists_or]

theorem failed_cons : Failed ((tag, failed) :: rest) ↔ failed = true ∨ Failed rest := by
  simp [Failed, exists_or]

variable {lens : Lens κ σ}

theorem ends_zoom {before after : κ} {value : α} (ends : (program.zoom lens).Ends fault before trace value after) :
    program.Ends fault (lens.get before) trace value (lens.get after) ∧ after = lens.set (lens.get after) before := by
  induction program generalizing before trace with
  | done result =>
      obtain ⟨rfl, rfl, rfl⟩ := ends
      exact ⟨⟨rfl, rfl, rfl⟩, (lens.set_get _).symm⟩
  | call tag op rest ih =>
      obtain ⟨later, ⟨rfl, answered⟩ | ⟨rfl, failure, faulty, failed⟩⟩ := ends
      · obtain ⟨inner, whole⟩ := ih _ answered
        simp only [Lens.act, lens.get_set] at inner
        simp only [Lens.act, lens.set_set] at whole
        exact ⟨⟨later, .inl ⟨rfl, inner⟩⟩, whole⟩
      · obtain ⟨inner, whole⟩ := ih _ failed
        exact ⟨⟨later, .inr ⟨rfl, failure, faulty, inner⟩⟩, whole⟩

def trace : Prog τ σ ε α → (Nat → Option ε) → σ → Trace τ
  | .done _, _, _ => []
  | .call tag op rest, plan, store =>
      match plan 0 with
      | some failure => (tag, true) :: (rest (.error failure)).trace (fun n => plan (n + 1)) store
      | none => (tag, false) :: (rest (op store).1).trace (fun n => plan (n + 1)) (op store).2

theorem ends_run (faulty : ∀ n, ∀ failure ∈ plan n, ∀ tag, fault tag failure) (program : Prog τ σ ε α) (store : σ) :
    program.Ends fault store (program.trace plan store) (program.run plan store).1 (program.run plan store).2 := by
  induction program generalizing store plan with
  | done value => exact ⟨rfl, rfl, rfl⟩
  | call tag op rest ih =>
      have later : ∀ n, ∀ failure ∈ plan (n + 1), ∀ tag, fault tag failure := fun n => faulty (n + 1)
      rw [run_call, trace]
      cases planned : plan 0 with
      | none => exact ⟨_, .inl ⟨rfl, ih _ later _⟩⟩
      | some failure => exact ⟨_, .inr ⟨rfl, failure, faulty 0 failure planned tag, ih _ later _⟩⟩

theorem run_of_ends {trace : Trace τ} {value : α} (ends : program.Ends fault before trace value after) :
    ∃ plan : Nat → Option ε, (∀ n, ∀ failure ∈ plan n, ∃ tag, fault tag failure) ∧
      program.run plan before = (value, after) := by
  induction program generalizing before trace with
  | done result =>
      obtain ⟨_, rfl, rfl⟩ := ends
      exact ⟨fun _ => none, by simp, rfl⟩
  | call tag op rest ih =>
      obtain ⟨later, ⟨_, answered⟩ | ⟨_, failure, faulty, failed⟩⟩ := ends
      · obtain ⟨plan, faults, ran⟩ := ih _ answered
        refine ⟨fun | 0 => none | n + 1 => plan n, ?_, by rw [run_call]; exact ran⟩
        rintro (_ | n) failure planned
        · cases planned
        · exact faults n failure planned
      · obtain ⟨plan, faults, ran⟩ := ih _ failed
        refine ⟨fun | 0 => some failure | n + 1 => plan n, ?_, by rw [run_call]; exact ran⟩
        rintro (_ | n) other planned
        · cases planned
          exact ⟨tag, faulty⟩
        · exact faults n other planned

theorem not_failed_trace (program : Prog τ σ ε α) (store : σ) : ¬Failed (program.trace (fun _ => none) store) := by
  induction program generalizing store with
  | done value => simp [trace, Failed]
  | call tag op rest ih =>
      rw [trace, failed_cons]
      simp [ih]

theorem ends_exec (fault : τ → ε → Prop) (program : Prog τ σ ε α) (store : σ) :
    ∃ trace, ¬Failed trace ∧ program.Ends fault store trace (program.exec store).1 (program.exec store).2 :=
  ⟨_, not_failed_trace program store, ends_run (by simp) program store⟩

theorem run_bind (program : Prog τ σ ε α) (plan : Nat → Option ε) (store : σ) : (program >>= next).run plan store =
      (next (program.run plan store).1).run (fun n => plan (n + (program.trace plan store).length))
        (program.run plan store).2 := by
  induction program generalizing store plan with
  | done value => rfl
  | call tag op rest ih =>
      rw [call_bind, run_call, run_call, trace]
      cases plan 0 with
      | none | some => exact ih _ _ _

theorem run_zoom {value : α} (ran : program.run plan (lens.get whole) = (value, part)) :
    (program.zoom lens).run plan whole = (value, lens.set part whole) := by
  induction program generalizing whole plan with
  | done result =>
      cases ran
      rw [zoom, run_done, lens.set_get]
  | call tag op rest ih =>
      rw [run_call] at ran
      rw [zoom, run_call]
      cases planned : plan 0 with
      | none =>
          simp only [planned] at ran
          have started : (rest (op (lens.get whole)).1).run (fun n => plan (n + 1))
              (lens.get (lens.act op whole).2) = (value, part) := by
            rw [Lens.act, lens.get_set]
            exact ran
          exact (ih _ started).trans (congrArg (Prod.mk value) (lens.set_set ..))
      | some failure =>
          simp only [planned] at ran
          exact ih _ ran

theorem Makes.zoom (makes : program.Makes fits post)
    (widen : ∀ tag effect, fits tag effect → wider tag fun whole => lens.set (effect (lens.get whole)) whole) :
    (program.zoom lens).Makes wider post := by
  induction program with
  | done value => exact makes
  | call tag op rest ih =>
      exact ⟨widen tag _ makes.1, fun whole => ih _ (makes.2.1 (lens.get whole)), fun failure => ih _ (makes.2.2 failure)⟩

theorem Makes.run_keeps {kept : σ → σ → Prop}
    (makes : program.Makes (fun _ effect => ∀ store, kept store (effect store)) post)
    (reflexive : ∀ store, kept store store)
    (transitive : ∀ first second third, kept first second → kept second third → kept first third)
    (plan : Nat → Option ε) (store : σ) : kept store (program.run plan store).2 := by
  induction program generalizing store plan with
  | done value => exact reflexive store
  | call tag op rest ih =>
      rw [run_call]
      cases plan 0 with
      | none => exact transitive _ _ _ (makes.1 store) (ih _ (makes.2.1 store) _ _)
      | some failure => exact ih _ (makes.2.2 failure) _ _

end Prog

end Sendplane.Data
