import Sendplane.Mbhealth.Record

namespace Sendplane.Mbhealth

open Store

/-- The lengths of the maximal runs of failures: those that ended, and the one
at the end of the observations. -/
structure Runs where
  ended : List Nat := []
  current : Nat := 0

def Runs.observe (runs : Runs) : Outcome → Runs
  | .ok => { ended := runs.ended ++ [runs.current] }
  | .fail _ _ => { runs with current := runs.current + 1 }

def runsOf (observations : List Outcome) : Runs :=
  observations.foldl Runs.observe {}

def Runs.events (runs : Runs) : List Text :=
  (runs.ended.flatMap fun n => if 2 ≤ n then [eventUnhealthy, eventRecovered] else []) ++
    if 2 ≤ runs.current then [eventUnhealthy] else []

def expectedEvents (observations : List Outcome) : List Text :=
  (runsOf observations).events

def Alternates (first second : Text) : List Text → Prop
  | [] => True
  | event :: rest => event = first ∧ Alternates second first rest

instance decidableAlternates : ∀ first second events, Decidable (Alternates first second events)
  | _, _, [] => .isTrue trivial
  | first, second, event :: rest =>
      have := decidableAlternates second first rest
      inferInstanceAs (Decidable (event = first ∧ Alternates second first rest))

theorem Alternates.of_append (alternates : Alternates first second (events ++ more)) :
    Alternates first second events := by
  induction events generalizing first second with
  | nil => trivial
  | cons event rest ih => exact ⟨alternates.1, ih alternates.2⟩

theorem Runs.events_alternate (runs : Runs) : Alternates eventUnhealthy eventRecovered runs.events := by
  unfold Runs.events
  induction runs.ended with
  | nil =>
      split
      · exact ⟨rfl, trivial⟩
      · trivial
  | cons length rest ih =>
      rw [List.flatMap_cons, List.append_assoc]
      split
      · exact ⟨rfl, rfl, ih⟩
      · exact ih

theorem expectedEvents_alternate (observations : List Outcome) :
    Alternates eventUnhealthy eventRecovered (expectedEvents observations) :=
  (runsOf observations).events_alternate

theorem runsOf_append (observations : List Outcome) (outcome : Outcome) :
    runsOf (observations ++ [outcome]) = (runsOf observations).observe outcome := by
  simp [runsOf]

/-- The stored health says how long the present run of failures is. -/
structure Tracks (health : MailboxHealth) (observations : List Outcome) : Prop where
  streak : health.consecutiveFailures = (runsOf observations).current
  failing : 0 < (runsOf observations).current → health.status = .error

variable (outcome : Outcome) (now : Time)

theorem Tracks.next (tracks : Tracks prev observations) :
    Tracks (nextHealth prev outcome now) (observations ++ [outcome]) := by
  obtain ⟨streak, failing⟩ := tracks
  cases outcome with
  | ok =>
      constructor
      · rw [runsOf_append]
        rfl
      · rw [runsOf_append]
        simp [Runs.observe]
  | fail stage reason =>
      constructor
      · rw [runsOf_append]
        simp only [nextHealth, Runs.observe, streak]
        push_cast
        rfl
      · intro _
        rfl

/-- The event that follows from the health before and after an observation is
the one that the observation adds to those an operator is to be told of. -/
theorem Tracks.event (tracks : Tracks prev observations) :
    expectedEvents (observations ++ [outcome]) =
      expectedEvents observations ++ (healthEvent prev (nextHealth prev outcome now)).toList := by
  obtain ⟨streak, failing⟩ := tracks
  rw [expectedEvents, expectedEvents, runsOf_append]
  generalize runsOf observations = runs at streak failing
  cases outcome with
  | ok =>
      have threshold : (runs.current : Int) ≥ failuresForEvent ↔ 2 ≤ runs.current := by
        unfold failuresForEvent
        omega
      simp only [Runs.events, Runs.observe, healthEvent, nextHealth, streak, threshold]
      by_cases long : 2 ≤ runs.current
      · have error : prev.status = .error := failing (by omega)
        simp [long, error, eventRecovered]
      · simp [long]
  | fail stage reason =>
      have threshold : (runs.current : Int) + 1 = failuresForEvent ↔ runs.current = 1 := by
        unfold failuresForEvent
        omega
      simp only [Runs.events, Runs.observe, healthEvent, nextHealth, streak, threshold]
      by_cases second : runs.current = 1
      · simp [second, eventUnhealthy]
      · have later : (2 ≤ runs.current + 1) ↔ 2 ≤ runs.current := by omega
        simp [second, later]

end Sendplane.Mbhealth
