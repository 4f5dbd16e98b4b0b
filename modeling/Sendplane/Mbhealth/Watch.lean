import Sendplane.Data.Threads
import Sendplane.Mbhealth.Runs
import Sendplane.Memstore.Columns

namespace Sendplane.Mbhealth

open Data Store Memstore List

def Kind.Row : Kind → Type
  | .probe => ProbeMailbox
  | .bounce => BounceMailbox

def Kind.column : (kind : Kind) → Column kind.Row MailboxHealth
  | .probe => probeMailboxHealth
  | .bounce => bounceMailboxHealth

def Kind.nameOf : (kind : Kind) → kind.Row → Text
  | .probe => ProbeMailbox.name
  | .bounce => BounceMailbox.name

structure Observation where
  id : Text
  outcome : Outcome
  now : Time
deriving DecidableEq

/-- Read the health, replace it, and enqueue an event if the verdict flipped. -/
inductive Phase where
  | get (o : Observation)
  | updateHealth (m : Mailbox) (outcome : Outcome) (now : Time)
  | enqueue (event : Notice)
  | done
deriving DecidableEq

/-- `outbox` lists the events as they were enqueued.  `writes` and `owed` are
history: the observations as they were written, and the events that follow from
them and have not been enqueued. -/
structure State (kind : Kind) where
  clock : Time := 0
  rows : Table Text kind.Row := ∅
  outbox : List Notice := []
  observers : List Phase := []
  writes : List (Text × Outcome) := []
  owed : List Notice := []

inductive Step where
  | observe (o : Observation)
  | call (observer : Nat) (fails : Bool)

namespace State

variable {kind : Kind} (s : State kind)

def move (observer : Nat) (phase : Phase) : State kind :=
  { s with observers := s.observers.set observer phase }

def perform (observer : Nat) : Phase → State kind
  | .get o =>
      match find s.rows o.id with
      | .error _ => s.move observer .done
      | .ok row => s.move observer (.updateHealth ⟨o.id, kind.nameOf row, kind.column.get row⟩ o.outcome o.now)
  | .updateHealth m outcome now =>
      match kind.column.update s.clock s.rows m.id (nextHealth m.health outcome now) with
      | (.error _, _) => s.move observer .done
      | (.ok _, rows) =>
          let event := notice kind m outcome now
          { s with
            rows
            observers := s.observers.set observer (event.elim .done .enqueue)
            writes := s.writes ++ [(m.id, outcome)]
            owed := s.owed ++ event.toList }
  | .enqueue event =>
      { s.move observer .done with
        outbox := s.outbox ++ [event]
        owed := s.owed.erase event }
  | .done => s

end State

def watching (kind : Kind) : System (State kind) Step where
  step
    | s, .observe o => some { s with observers := s.observers ++ [.get o] }
    | s, .call observer fails =>
        match s.observers[observer]? with
        | none | some .done => none
        | some phase => some (if fails then s.move observer .done else s.perform observer phase)

def observed (id : Text) (writes : List (Text × Outcome)) : List Outcome :=
  (writes.filter fun write => write.1 = id).map Prod.snd

def eventsOf (id : Text) (events : List Notice) : List Text :=
  (events.filter fun event => event.body.mailboxID = id).map Notice.type

/-- Status and streak are those that were read. -/
def SameStreak (stored read : MailboxHealth) : Prop :=
  stored.status = read.status ∧ stored.consecutiveFailures = read.consecutiveFailures

instance (stored read : MailboxHealth) : Decidable (SameStreak stored read) :=
  inferInstanceAs (Decidable (_ ∧ _))

/-- A health is written over the streak that it was computed from, and the
events of a mailbox are enqueued in the order of the writes they follow from. -/
def Phase.Orderly {kind : Kind} (s : State kind) (fails : Bool) : Phase → Prop
  | .updateHealth m _ _ =>
      fails = true ∨ ∀ row ∈ s.rows[m.id]?, SameStreak (kind.column.get row) m.health
  | .enqueue event =>
      fails = false ∧ (s.owed.filter fun other => other.body.mailboxID = event.body.mailboxID).head? = some event
  | .get _ | .done => True

instance {kind : Kind} (s : State kind) (fails : Bool) : ∀ phase, Decidable (Phase.Orderly s fails phase)
  | .updateHealth .. => inferInstanceAs (Decidable (_ ∨ _))
  | .enqueue _ => inferInstanceAs (Decidable (_ ∧ _))
  | .get _ | .done => .isTrue trivial

def Orderly {kind : Kind} (s : State kind) : Step → Prop
  | .observe _ => True
  | .call observer fails => ∀ phase ∈ s.observers[observer]?, phase.Orderly s fails

instance {kind : Kind} (s : State kind) : ∀ label, Decidable (Orderly s label)
  | .observe _ => .isTrue trivial
  | .call observer fails => inferInstanceAs (Decidable (∀ phase ∈ s.observers[observer]?, phase.Orderly s fails))

structure Fresh {kind : Kind} (s : State kind) : Prop where
  outbox : s.outbox = []
  observers : s.observers = []
  writes : s.writes = []
  owed : s.owed = []
  rows : ∀ (id : Text) row, s.rows[id]? = some row → (kind.column.get row).consecutiveFailures = 0

def Phase.event? : Phase → Option Notice
  | .enqueue event => some event
  | _ => none

/-- The events that are enqueued or owed are those that the writes call for. -/
structure Consistent {kind : Kind} (s : State kind) : Prop where
  pending : s.owed.Perm (s.observers.filterMap Phase.event?)
  events : ∀ id, eventsOf id s.outbox ++ eventsOf id s.owed = expectedEvents (observed id s.writes)
  tracks : ∀ (id : Text) row, s.rows[id]? = some row → Tracks (kind.column.get row) (observed id s.writes)

theorem observed_append (id : Text) : observed id (writes ++ [write]) =
      if write.1 = id then observed id writes ++ [write.2] else observed id writes := by
  simp only [observed, filter_append]
  split
  next same => simp [same]
  next other => simp [other]

theorem eventsOf_append (id : Text) : eventsOf id (events ++ more) = eventsOf id events ++ eventsOf id more := by
  simp [eventsOf]

theorem eventsOf_notice (outcome : Outcome) (id : Text) : eventsOf id (notice kind m outcome now).toList =
      if m.id = id then (healthEvent m.health (nextHealth m.health outcome now)).toList else [] := by
  simp only [notice]
  cases healthEvent m.health (nextHealth m.health outcome now) with
  | none =>
      split <;> rfl
  | some type =>
      split
      next same => simp [eventsOf, eventPayload, same]
      next other => simp [eventsOf, eventPayload, other]

private theorem filter_erase (events : List Notice) :
    (events.erase event).filter p = if p event then (events.filter p).erase event else events.filter p := by
  induction events with
  | nil => simp
  | cons other rest ih =>
      by_cases same : other = event
      · subst same
        cases keeps : p other with
        | true | false => simp [keeps]
      · rw [erase_cons_tail (by simpa using same), filter_cons, filter_cons, ih]
        cases keeps : p event with
        | true =>
            cases p other with
            | true => simp [same]
            | false => simp
        | false => simp

/-- Enqueueing the oldest event of a mailbox moves it, and no other, from the
owed ones to the end of the outbox. -/
theorem eventsOf_enqueue
    (oldest : (owed.filter fun other => other.body.mailboxID = event.body.mailboxID).head? = some event) (id : Text) :
    eventsOf id [event] ++ eventsOf id (owed.erase event) = eventsOf id owed := by
  simp only [eventsOf, filter_erase]
  by_cases same : event.body.mailboxID = id
  · subst same
    obtain ⟨rest, first⟩ := head?_eq_some_iff.mp oldest
    simp [first]
  · simp [same]

theorem Tracks.congr {stored read : MailboxHealth} (tracks : Tracks stored observations)
    (same : SameStreak stored read) : Tracks read observations :=
  ⟨same.2.symm.trans tracks.streak, fun failing => same.1.symm.trans (tracks.failing failing)⟩

section

variable {kind : Kind} {s next : State kind}

theorem column_rounded : SameStreak h (kind.column.rounded h) := by
  cases kind with
  | probe | bounce => exact ⟨rfl, rfl⟩

theorem Consistent.move (consistent : Consistent s) (found : s.observers[observer]? = some old)
    (free : old.event? = none) (quiet : new.event? = none) : Consistent (s.move observer new) := by
  obtain ⟨others, before, after⟩ := Threads.filterMap_set Phase.event? found
  refine ⟨consistent.pending.trans ?_, consistent.events, consistent.tracks⟩
  have replaced := after new
  rw [free] at before
  rw [quiet] at replaced
  exact before.trans replaced.symm

theorem Consistent.updateHealth {m : Mailbox} {outcome : Outcome} (consistent : Consistent s)
    (found : s.observers[observer]? = some (.updateHealth m outcome now)) (stored : s.rows[m.id]? = some row)
    (same : SameStreak (kind.column.get row) m.health) :
    Consistent (s.perform observer (.updateHealth m outcome now)) := by
  have tracks := (consistent.tracks m.id row stored).congr same
  simp only [State.perform, Column.update, updateColumn, stored]
  constructor
  · obtain ⟨others, before, after⟩ := Threads.filterMap_set Phase.event? found
    have told : ((notice kind m outcome now).elim .done .enqueue : Phase).event? = notice kind m outcome now := by
      cases notice kind m outcome now <;> rfl
    have replaced := after ((notice kind m outcome now).elim .done .enqueue)
    rw [told] at replaced
    exact ((consistent.pending.trans before).append_right _).trans (perm_append_comm.trans replaced.symm)
  · intro id
    rw [eventsOf_append, ← append_assoc, consistent.events, eventsOf_notice, observed_append]
    split
    next same =>
      subst same
      exact (tracks.event outcome now).symm
    · rw [append_nil]
  · intro id after changed
    rw [observed_append]
    rw [Table.get_modify] at changed
    split
    next same =>
      subst same
      rw [if_pos rfl, stored] at changed
      cases changed
      rw [kind.column.get_write]
      exact (tracks.next outcome now).congr column_rounded
    next other =>
      rw [if_neg other] at changed
      exact consistent.tracks id after changed

theorem Consistent.enqueue (consistent : Consistent s) (found : s.observers[observer]? = some (.enqueue event))
    (oldest : (s.owed.filter fun other => other.body.mailboxID = event.body.mailboxID).head? = some event) :
    Consistent (s.perform observer (.enqueue event)) := by
  constructor
  · obtain ⟨others, before, after⟩ := Threads.filterMap_set Phase.event? found
    have left : (s.owed.erase event).Perm others := by
      have erased := (consistent.pending.trans before).erase event
      rwa [Phase.event?, Option.toList_some, singleton_append, erase_cons_head] at erased
    exact left.trans (after .done).symm
  · intro id
    show eventsOf id (s.outbox ++ [event]) ++ eventsOf id (s.owed.erase event) = _
    rw [eventsOf_append, append_assoc, eventsOf_enqueue oldest]
    exact consistent.events id
  · exact consistent.tracks

theorem consistent_step (consistent : Consistent s) (orderly : Orderly s label)
    (stepped : (watching kind).step s label = some next) : Consistent next := by
  cases label with
  | observe o =>
      cases stepped
      refine ⟨consistent.pending.trans ?_, consistent.events, consistent.tracks⟩
      rw [filterMap_append]
      exact .of_eq (append_nil _).symm
  | call observer fails =>
      cases found : s.observers[observer]? with
      | none => simp [watching, found] at stepped
      | some phase =>
          cases phase with
          | done => simp [watching, found] at stepped
          | get o =>
              simp only [watching, found, Option.some.injEq] at stepped
              subst stepped
              split
              · exact consistent.move found rfl rfl
              · cases looked : find s.rows o.id with
                | error | ok =>
                    simp only [State.perform, looked]
                    exact consistent.move found rfl rfl
          | updateHealth m outcome now =>
              simp only [watching, found, Option.some.injEq] at stepped
              subst stepped
              split
              · exact consistent.move found rfl rfl
              next works =>
                cases stored : s.rows[m.id]? with
                | none =>
                    simp only [State.perform, Column.update, updateColumn, stored]
                    exact consistent.move found rfl rfl
                | some row =>
                    rcases orderly _ found with failing | same
                    · exact absurd failing works
                    · exact consistent.updateHealth found stored (same row stored)
          | enqueue event =>
              obtain ⟨rfl, oldest⟩ := orderly _ found
              simp only [watching, found, Bool.false_eq_true, Option.some.injEq] at stepped
              subst stepped
              exact consistent.enqueue found oldest

theorem Fresh.consistent (fresh : Fresh s) : Consistent s := by
  constructor
  · rw [fresh.owed, fresh.observers]
    exact .nil
  · intro id
    rw [fresh.outbox, fresh.owed, fresh.writes]
    rfl
  · intro id row stored
    rw [fresh.writes]
    exact ⟨fresh.rows id row stored, fun failing => absurd failing (Nat.lt_irrefl 0)⟩

/-- In every run that writes each health over the streak it was computed from
and enqueues in the order of the writes, the events of every mailbox alternate,
one for every run of two or more failures and one for its end. -/
theorem events_follow_runs {start : State kind} (fresh : Fresh start)
    (reached : (watching kind).Reaches Orderly start s) (id : Text) :
    Alternates eventUnhealthy eventRecovered (eventsOf id s.outbox) ∧
      eventsOf id s.outbox <+: expectedEvents (observed id s.writes) ∧ ((∀ phase ∈ s.observers, phase = .done) →
        eventsOf id s.outbox = expectedEvents (observed id s.writes)) := by
  have consistent : Consistent s :=
    reached.invariant fresh.consistent fun _ _ _ consistent orderly stepped => consistent_step consistent orderly stepped
  have all := consistent.events id
  refine ⟨?_, ⟨_, all⟩, fun finished => ?_⟩
  · have alternates := expectedEvents_alternate (observed id s.writes)
    rw [← all] at alternates
    exact alternates.of_append
  · have settled : s.owed = [] := by
      have none : s.observers.filterMap Phase.event? = [] := by
        rw [filterMap_eq_nil_iff]
        intro phase member
        rw [finished phase member]
        rfl
      have pending := consistent.pending
      rw [none] at pending
      exact pending.eq_nil
    rw [← all, settled]
    exact (append_nil _).symm

end

def newMailbox : State .bounce where
  rows := (∅ : Table Text BounceMailbox).insert (text "m1") { id := text "m1", name := text "bounces" }

theorem newMailbox_fresh : Fresh newMailbox where
  outbox := rfl
  observers := rfl
  writes := rfl
  owed := rfl
  rows := by
    intro id row stored
    obtain ⟨_, rfl⟩ := Table.eq_of_get_single stored
    rfl

def observing (outcome : Outcome) : Step :=
  .observe { id := text "m1", outcome, now := 0 }

def loginFails : Step :=
  observing (.fail (text "auth") (text "login refused"))

def calls (observer : Nat) : Step :=
  .call observer false

/-- One observer after the other: two failures and a check that worked. -/
def outageSteps : List Step :=
  [loginFails, calls 0, calls 0, loginFails, calls 1, calls 1, calls 1, observing .ok, calls 2, calls 2, calls 2]

theorem outage_is_told : ∃ s, (watching .bounce).run newMailbox outageSteps = some s ∧
    observed (text "m1") s.writes ≠ [] ∧ eventsOf (text "m1") s.outbox = [eventUnhealthy, eventRecovered] := by
  have orderly : (watching .bounce).Guarded Orderly newMailbox outageSteps := by decide +kernel
  have final : ((watching .bounce).run newMailbox outageSteps).map (fun s =>
      (decide (∀ phase ∈ s.observers, phase = .done), decide (observed (text "m1") s.writes ≠ []),
        expectedEvents (observed (text "m1") s.writes))) = some (true, true, [eventUnhealthy, eventRecovered]) := by
    decide +kernel
  obtain ⟨s, ran, same⟩ := Option.map_eq_some_iff.mp final
  simp only [Prod.mk.injEq, decide_eq_true_eq] at same
  obtain ⟨finished, seen, expected⟩ := same
  refine ⟨s, ran, seen, ?_⟩
  rw [← expected]
  exact (events_follow_runs newMailbox_fresh (System.reaches_of_run orderly ran) (text "m1")).2.2 finished

/-- Two replicas read a streak of one failure, both write two, and both tell of
it. -/
def racingSteps : List Step :=
  [loginFails, calls 0, calls 0, loginFails, loginFails, calls 1, calls 2, calls 1, calls 2, calls 1, calls 2]

theorem outage_is_told_twice : ∃ s, (watching .bounce).run newMailbox racingSteps = some s ∧ Fresh newMailbox ∧
    (∀ phase ∈ s.observers, phase = .done) ∧ eventsOf (text "m1") s.outbox = [eventUnhealthy, eventUnhealthy] ∧
    ¬Alternates eventUnhealthy eventRecovered (eventsOf (text "m1") s.outbox) ∧
    expectedEvents (observed (text "m1") s.writes) = [eventUnhealthy] := by
  have final : ((watching .bounce).run newMailbox racingSteps).map (fun s =>
      (decide (∀ phase ∈ s.observers, phase = .done), eventsOf (text "m1") s.outbox,
        expectedEvents (observed (text "m1") s.writes))) =
          some (true, [eventUnhealthy, eventUnhealthy], [eventUnhealthy]) := by
    decide +kernel
  obtain ⟨s, ran, same⟩ := Option.map_eq_some_iff.mp final
  simp only [Prod.mk.injEq, decide_eq_true_eq] at same
  obtain ⟨finished, events, expected⟩ := same
  refine ⟨s, ran, newMailbox_fresh, finished, events, ?_, expected⟩
  rw [events]
  decide

end Sendplane.Mbhealth
