import Mathlib.Logic.Relation

namespace Sendplane.Data

/-! # Labelled transition systems

A system is a partial step function.  Runs are finite label lists, which keeps
concrete runs executable; reachability is taken under a guard on the labels.
-/

universe u v

/-- A step yields `none` when the label is not enabled in the state. -/
structure System (σ : Type u) (ι : Type v) where
  step : σ → ι → Option σ

namespace System

variable {σ : Type u} {ι : Type v} (sys : System σ ι)

/-- A step whose label the guard admits. -/
def Next (guard : σ → ι → Prop) (before after : σ) : Prop :=
  ∃ label, guard before label ∧ sys.step before label = some after

/-- Reachability by steps that all meet the guard. -/
def Reaches (guard : σ → ι → Prop) : σ → σ → Prop :=
  Relation.ReflTransGen (sys.Next guard)

def Reachable : σ → σ → Prop :=
  sys.Reaches fun _ _ => True

def run : σ → List ι → Option σ
  | state, [] => some state
  | state, label :: rest => (sys.step state label).bind fun next => run next rest

def Guarded (guard : σ → ι → Prop) : σ → List ι → Prop
  | _, [] => True
  | state, label :: rest =>
      guard state label ∧ ∀ next, sys.step state label = some next → Guarded guard next rest

/-- A concrete run can be checked against a decidable guard. -/
instance decidableGuarded (guard : σ → ι → Prop) [∀ state label, Decidable (guard state label)] :
    ∀ state labels, Decidable (sys.Guarded guard state labels)
  | _, [] => .isTrue trivial
  | state, label :: rest =>
      have : Decidable (∀ next, sys.step state label = some next → sys.Guarded guard next rest) :=
        match stepped : sys.step state label with
        | none => .isTrue fun _ absurd => by cases absurd
        | some next =>
            have := decidableGuarded guard next rest
            decidable_of_iff (sys.Guarded guard next rest)
              ⟨fun guarded _ same => by cases same; exact guarded, fun guarded => guarded next rfl⟩
      inferInstanceAs (Decidable (_ ∧ _))

variable {sys} {guard : σ → ι → Prop}

theorem reaches_of_run (guarded : sys.Guarded guard start labels) (completed : sys.run start labels = some final) :
    sys.Reaches guard start final := by
  induction labels generalizing start with
  | nil =>
      cases completed
      exact .refl
  | cons label rest ih =>
      obtain ⟨next, stepped, tail⟩ := Option.bind_eq_some_iff.mp completed
      exact .head ⟨label, guarded.1, stepped⟩ (ih (guarded.2 next stepped) tail)

theorem guarded_true (start : σ) : sys.Guarded (fun _ _ => True) start labels := by
  induction labels generalizing start with
  | nil => trivial
  | cons label rest ih => exact ⟨trivial, fun next _ => ih next⟩

theorem reachable_of_run (completed : sys.run start labels = some final) : sys.Reachable start final :=
  reaches_of_run (guarded_true start) completed

theorem cut_run (guarded : sys.Guarded guard start (first ++ second))
    (completed : sys.run start (first ++ second) = some final) :
    ∃ middle, sys.run start first = some middle ∧ sys.Reaches guard start middle ∧
      sys.Guarded guard middle second ∧ sys.run middle second = some final := by
  induction first generalizing start with
  | nil => exact ⟨start, rfl, .refl, guarded, completed⟩
  | cons label rest ih =>
      obtain ⟨next, stepped, tail⟩ := Option.bind_eq_some_iff.mp completed
      obtain ⟨middle, ran, reached, remaining, last⟩ := ih (guarded.2 next stepped) tail
      refine ⟨middle, ?_, .head ⟨label, guarded.1, stepped⟩ reached, remaining, last⟩
      simpa [run, stepped] using ran

theorem last_step_of_run (guarded : sys.Guarded guard start (labels ++ [label]))
    (completed : sys.run start (labels ++ [label]) = some final) :
    ∃ state, sys.run start labels = some state ∧ sys.Reaches guard start state ∧
      guard state label ∧ sys.step state label = some final := by
  obtain ⟨state, ran, reached, remaining, last⟩ := cut_run guarded completed
  exact ⟨state, ran, reached, remaining.1, by simpa [run] using last⟩

/-- The invariant rule: what holds at the start and survives every guarded
step holds in every state a guarded run reaches. -/
theorem Reaches.invariant {inv : σ → Prop} (initial : inv start)
    (kept : ∀ before label after, inv before → guard before label → sys.step before label = some after → inv after)
    (reached : sys.Reaches guard start state) : inv state := by
  induction reached with
  | refl => exact initial
  | tail _ next ih =>
      obtain ⟨label, allowed, stepped⟩ := next
      exact kept _ label _ ih allowed stepped

/-- How often a run leaves the states of a test. -/
def departures (sys : System σ ι) (inside : σ → Bool) : σ → List ι → Nat
  | _, [] => 0
  | state, label :: rest =>
      match sys.step state label with
      | none => 0
      | some next => (if inside state && !inside next then 1 else 0) + departures sys inside next rest

/-- If no step leads back, a run leaves at most once. -/
theorem departures_of_run {inv : σ → Prop} (initial : inv start)
    (kept : ∀ before label after, inv before → sys.step before label = some after → inv after)
    (outside : ∀ before label after, inv before → sys.step before label = some after → inside before = false →
      inside after = false)
    (completed : sys.run start labels = some last) : (inside start = false → inside last = false) ∧
      sys.departures inside start labels = if inside start && !inside last then 1 else 0 := by
  induction labels generalizing start with
  | nil =>
      cases completed
      exact ⟨id, by simp [departures]⟩
  | cons label rest ih =>
      obtain ⟨next, stepped, tail⟩ := Option.bind_eq_some_iff.mp completed
      obtain ⟨stays, count⟩ := ih (kept start label next initial stepped) tail
      have leaves := outside start label next initial stepped
      simp only [departures, stepped, count]
      cases first : inside start with
      | false => simp [leaves first, stays (leaves first)]
      | true =>
          cases second : inside next with
          | false => simp [stays second]
          | true => simp

end System

end Sendplane.Data
