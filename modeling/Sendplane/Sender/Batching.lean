import Sendplane.Sender.Results

namespace Sendplane.Sender.Batching

open Data Store List

def completionOf (res : DeliveryResult) (d : Option Delivery) : Completion :=
  match d with
  | some d => completion res d
  | none => { res, d := {} }

@[simp] theorem completionOf_res : (completionOf res d).res = res := by
  cases d <;> rfl

/-- Where the loop is; `last` is set once it has seen the closed channel. -/
inductive Loop where
  | waiting
  | flushing (last : Bool)
  | committing (batch : List Completion) (last : Bool)
  | announcing (last : Bool)
  | done

def Loop.next (last : Bool) : Loop :=
  if last then .done else .waiting

/-- The loop has taken the buffer for the last time. -/
def Loop.stopped : Loop → Bool
  | .committing _ last | .announcing last => last
  | .done => true
  | .waiting | .flushing _ => false

def Loop.batch : Loop → List Completion
  | .committing batch _ => batch
  | .waiting | .flushing _ | .announcing _ | .done => []

/-- The loop takes the whole buffer under the lock and commits it outside. -/
structure State where
  buf : List Completion := []
  /-- Workers that saw a full buffer and have not signalled yet. -/
  signals : Nat := 0
  wake : Bool := false
  closed : Bool := false
  loop : Loop := .waiting
  returned : Bool := false
  added : List DeliveryResult := []
  /-- Those of them that came after the buffer was taken for the last time. -/
  late : List DeliveryResult := []
  /-- The Complete calls and whether they have succeeded, the latest first. -/
  calls : List (List DeliveryResult × Bool) := []

inductive Wakeup where
  | closed | wake | tick
deriving DecidableEq

inductive Step where
  | add (res : DeliveryResult) (d : Option Delivery)
  | signal
  | close
  | wakeUp (cause : Wakeup)
  | take
  | complete (succeeds : Bool)
  | announced
  | closeReturns

def add (size : Int) (s : State) (res : DeliveryResult) (d : Option Delivery) : State :=
  let s := { s with
    added := res :: s.added
    late := if s.loop.stopped then res :: s.late else s.late }
  if res.deliveryID = [] then s
  else
    let buf := s.buf ++ [completionOf res d]
    { s with buf, signals := if size ≤ buf.length then s.signals + 1 else s.signals }

def wakeUp (s : State) : Wakeup → Option State
  | .closed => if s.closed then some { s with loop := .flushing true } else none
  | .wake => if s.wake then some { s with wake := false, loop := .flushing false } else none
  | .tick => some { s with loop := .flushing false }

def batching (size : Int) : System State Step where
  step
    | s, .add res d => some (add size s res d)
    | s, .signal =>
        -- A signal that finds one waiting is dropped.
        if s.signals = 0 then none else some { s with signals := s.signals - 1, wake := true }
    | s, .close => some { s with closed := true }
    | s, .wakeUp cause =>
        match s.loop with
        | .waiting => wakeUp s cause
        | _ => none
    | s, .take =>
        match s.loop with
        | .flushing last =>
            if s.buf = [] then some { s with loop := .next last }
            else some { s with buf := [], loop := .committing s.buf last }
        | _ => none
    | s, .complete succeeds =>
        match s.loop with
        | .committing batch last => some { s with
            loop := if succeeds then .announcing last else .next last
            calls := (batch.map Completion.res, succeeds) :: s.calls }
        | _ => none
    | s, .announced =>
        match s.loop with
        | .announcing last => some { s with loop := .next last }
        | _ => none
    | s, .closeReturns =>
        match s.loop with
        | .done => if s.closed then some { s with returned := true } else none
        | _ => none

namespace State

variable (s : State)

def pending : List DeliveryResult :=
  (s.buf ++ s.loop.batch).map Completion.res

def completed (succeeds : Bool) : List DeliveryResult :=
  (s.calls.filter fun call => call.2 = succeeds).flatMap Prod.fst

/-- Every result is pending or was part of a Complete that has succeeded. -/
def Conserved : Prop :=
  s.added.Perm (s.pending ++ s.completed true)

/-- Every result is committed. -/
def Settled : Prop :=
  s.added.Perm (s.completed true)

/-- The last commit succeeded. -/
def LastSucceeded : Prop :=
  ∀ call ∈ s.calls.head?, call.2 = true

instance : Decidable s.LastSucceeded :=
  inferInstanceAs (Decidable (∀ call ∈ s.calls.head?, call.2 = true))

end State

/-- Results are counted once each, and only those that name a delivery are ever
pending. -/
structure Ledger (added pending committed refused : List DeliveryResult) : Prop where
  named : ∀ res ∈ pending ++ committed ++ refused, res.deliveryID ≠ []
  counted : ∀ res : DeliveryResult, res.deliveryID ≠ [] →
    added.count res = pending.count res + committed.count res + refused.count res

namespace Ledger

variable {added pending committed refused : List DeliveryResult}

section

variable (ledger : Ledger added pending committed refused)
include ledger

theorem skip (unnamed : res.deliveryID = []) : Ledger (res :: added) pending committed refused := by
  refine ⟨ledger.named, ?_⟩
  intro other named
  have differs : res ≠ other := by
    rintro rfl
    exact named unnamed
  rw [count_cons_of_ne differs, ledger.counted other named]

theorem enter (named : res.deliveryID ≠ []) (entered : pending'.Perm (res :: pending)) :
    Ledger (res :: added) pending' committed refused := by
  constructor
  · intro other member
    simp only [mem_append, entered.mem_iff, mem_cons] at member
    rcases member with ((rfl | inside) | done) | failed
    · exact named
    · exact ledger.named other (by simp [inside])
    · exact ledger.named other (by simp [done])
    · exact ledger.named other (by simp [failed])
  · intro other isNamed
    have before := ledger.counted other isNamed
    rw [entered.count_eq, count_cons, count_cons]
    omega

theorem regroup (regrouped : (pending' ++ committed' ++ refused').Perm (pending ++ committed ++ refused)) :
    Ledger added pending' committed' refused' := by
  constructor
  · intro other member
    exact ledger.named other (regrouped.mem_iff.mp member)
  · intro other named
    have same := regrouped.count_eq other
    rw [ledger.counted other named]
    simp only [count_append] at same
    exact same.symm

end

theorem commit (ledger : Ledger added (rest ++ batch) committed refused) :
    Ledger added rest (batch ++ committed) refused := by
  apply ledger.regroup
  rw [← append_assoc rest]

theorem refuse (ledger : Ledger added (rest ++ batch) committed refused) :
    Ledger added rest committed (batch ++ refused) := by
  apply ledger.regroup
  simp only [append_assoc]
  exact (perm_append_comm_assoc committed batch refused).append_left rest

theorem perm_iff (ledger : Ledger added pending committed refused) :
    added.Perm (pending ++ committed) ↔ (∀ res ∈ added, res.deliveryID ≠ []) ∧ refused = [] := by
  constructor
  · intro same
    constructor
    · intro res member
      apply ledger.named res
      exact mem_append_left refused (same.mem_iff.mp member)
    · rw [eq_nil_iff_forall_not_mem]
      intro res failed
      have balance := ledger.counted res (ledger.named res (mem_append_right _ failed))
      have present := count_pos_iff.mpr failed
      rw [same.count_eq, count_append] at balance
      omega
  · rintro ⟨named, rfl⟩
    rw [perm_iff_count]
    intro res
    by_cases isNamed : res.deliveryID = []
    · have absent : res ∉ added := fun member => named res member isNamed
      have untouched : res ∉ pending ++ committed := by
        intro member
        exact ledger.named res (mem_append_left [] member) isNamed
      rw [count_eq_zero.mpr absent, count_eq_zero.mpr untouched]
    · rw [ledger.counted res isNamed, count_append, count_nil, Nat.add_zero]

end Ledger

def Balanced (s : State) : Prop :=
  Ledger s.added s.pending (s.completed true) (s.completed false)

theorem Balanced.keep {s after : State} (balanced : Balanced s) (added : after.added = s.added)
    (buf : after.buf = s.buf) (batch : after.loop.batch = s.loop.batch) (calls : after.calls = s.calls) :
    Balanced after := by
  unfold Balanced State.pending State.completed at *
  rwa [added, buf, batch, calls]

/-- Where the results are that have been added. -/
structure Accounted (s : State) : Prop where
  ledger : Balanced s
  calls : ∀ call ∈ s.calls, call.1 ≠ []
  batch : ∀ batch last, s.loop = .committing batch last → batch ≠ []
  /-- Once the loop has stopped the buffer has nothing but late results. -/
  late : s.loop.stopped = true → ∀ res, res ∈ s.buf.map Completion.res ↔ res ∈ s.late ∧ res.deliveryID ≠ []
  inTime : s.loop.stopped = false → s.late = []
  returned : s.returned = true → s.loop = .done

theorem Loop.batch_next : (Loop.next last).batch = [] := by
  cases last <;> rfl

theorem Loop.next_ne_committing (batch : List Completion) : Loop.next last ≠ .committing batch other := by
  cases last <;> nofun

variable {size : Int} {s next : State}

theorem accounted_add (accounted : Accounted s) : Accounted (add size s res d) := by
  obtain ⟨ledger, calls, batch, late, inTime, returned⟩ := accounted
  by_cases named : res.deliveryID = []
  · simp only [add, named, ↓reduceIte]
    refine ⟨ledger.skip named, calls, batch, ?_, ?_, returned⟩
    · intro stopped other
      simp only [stopped, ↓reduceIte, mem_cons]
      rw [late stopped]
      constructor
      · exact fun both => ⟨.inr both.1, both.2⟩
      · rintro ⟨rfl | before, isNamed⟩
        · exact absurd named isNamed
        · exact ⟨before, isNamed⟩
    · intro running
      simpa [running] using inTime running
  · simp only [add, named, ↓reduceIte]
    refine ⟨ledger.enter named ?_, calls, batch, ?_, ?_, returned⟩
    · simp only [State.pending, map_append, map_cons, completionOf_res, append_assoc]
      exact perm_middle
    · intro stopped other
      simp only [map_append, map_cons, map_nil, completionOf_res, mem_append, mem_cons,
        not_mem_nil, or_false, stopped, ↓reduceIte]
      rw [late stopped]
      constructor
      · rintro (both | rfl)
        · exact ⟨.inr both.1, both.2⟩
        · exact ⟨.inl rfl, named⟩
      · rintro ⟨rfl | before, isNamed⟩
        · exact .inr rfl
        · exact .inl ⟨before, isNamed⟩
    · intro running
      simpa [running] using inTime running

variable {last : Bool}

section

variable (accounted : Accounted s)
include accounted

theorem accounted_take (flushing : s.loop = .flushing last) (some : s.buf ≠ []) :
    Accounted { s with buf := [], loop := .committing s.buf last } := by
  obtain ⟨ledger, calls, batch, late, inTime, returned⟩ := accounted
  have none : s.late = [] := inTime (by rw [flushing]; rfl)
  refine ⟨?_, calls, ?_, ?_, fun _ => none, ?_⟩
  · unfold Balanced State.pending State.completed at ledger ⊢
    simpa [flushing, Loop.batch] using ledger
  · intro taken other same
    cases same
    exact some
  · simp [none]
  · intro done
    rw [returned done] at flushing
    cases flushing

theorem accounted_idle (flushing : s.loop = .flushing last) (empty : s.buf = []) :
    Accounted { s with loop := .next last } := by
  have none : s.late = [] := accounted.inTime (by rw [flushing]; rfl)
  have ledger : Balanced { s with loop := .next last } := by
    refine accounted.ledger.keep rfl rfl ?_ rfl
    rw [flushing, Loop.batch_next]
    rfl
  refine ⟨ledger, accounted.calls, ?_, ?_, fun _ => none, ?_⟩
  · intro batch other committing
    exact absurd committing (Loop.next_ne_committing batch)
  · simp [empty, none]
  · intro back
    rw [accounted.returned back] at flushing
    cases flushing

theorem accounted_end {after : State} (same : after.buf = s.buf) (added : after.late = s.late)
    (loop : after.loop = .next last) (stopped : s.loop.stopped = last) (ledger : Balanced after)
    (calls : ∀ call ∈ after.calls, call.1 ≠ []) (returned : after.returned = false) : Accounted after := by
  have kept : after.loop.stopped = s.loop.stopped := by
    rw [loop, stopped]
    cases last <;> rfl
  refine ⟨ledger, calls, ?_, ?_, ?_, ?_⟩
  · intro batch other committing
    rw [loop] at committing
    exact absurd committing (Loop.next_ne_committing batch)
  · intro finished
    rw [same, added]
    exact accounted.late (kept ▸ finished)
  · intro running
    rw [added]
    exact accounted.inTime (kept ▸ running)
  · intro back
    rw [returned] at back
    cases back

theorem Accounted.running (busy : s.loop ≠ .done) : s.returned = false := by
  cases back : s.returned with
  | false => rfl
  | true => exact absurd (accounted.returned back) busy

theorem accounted_complete {succeeds : Bool} (committing : s.loop = .committing batch last) : Accounted { s with
      loop := if succeeds then .announcing last else .next last
      calls := (batch.map Completion.res, succeeds) :: s.calls } := by
  have running := accounted.running (by rw [committing]; nofun)
  have some := accounted.batch batch last committing
  have calls : ∀ call ∈ (batch.map Completion.res, succeeds) :: s.calls, call.1 ≠ [] := by
    intro call member
    rcases mem_cons.mp member with rfl | earlier
    · simpa using some
    · exact accounted.calls call earlier
  have ledger := accounted.ledger
  rw [Balanced, State.pending, committing, Loop.batch, map_append] at ledger
  cases succeeds with
  | true =>
      refine ⟨?_, calls, nofun, ?_, ?_, ?_⟩
      · have committed := ledger.commit
        simpa [Balanced, State.pending, State.completed, Loop.batch] using committed
      · intro stopped
        exact accounted.late (by rw [committing]; exact stopped)
      · intro going
        exact accounted.inTime (by rw [committing]; exact going)
      · intro back
        exact absurd (running.symm.trans back) nofun
  | false =>
      refine accounted_end accounted rfl rfl rfl (by rw [committing]; rfl) ?_ calls running
      have refused := ledger.refuse
      simpa [Balanced, State.pending, State.completed, Loop.batch_next] using refused

theorem accounted_step (stepped : (batching size).step s label = some next) : Accounted next := by
  cases label with
  | add res d =>
      cases stepped
      exact accounted_add accounted
  | signal =>
      simp only [batching, Option.ite_none_left_eq_some, Option.some.injEq] at stepped
      obtain ⟨_, rfl⟩ := stepped
      exact ⟨accounted.ledger, accounted.calls, accounted.batch, accounted.late, accounted.inTime, accounted.returned⟩
  | close =>
      cases stepped
      exact ⟨accounted.ledger, accounted.calls, accounted.batch, accounted.late, accounted.inTime, accounted.returned⟩
  | wakeUp cause =>
      cases waiting : s.loop with
      | waiting =>
          have woken : ∃ last wake, next = { s with wake, loop := .flushing last } := by
            simp only [batching, waiting] at stepped
            cases cause with
            | closed =>
                simp only [wakeUp, Option.ite_none_right_eq_some, Option.some.injEq] at stepped
                exact ⟨true, s.wake, stepped.2.symm⟩
            | wake =>
                simp only [wakeUp, Option.ite_none_right_eq_some, Option.some.injEq] at stepped
                exact ⟨false, false, stepped.2.symm⟩
            | tick => exact ⟨false, s.wake, (Option.some.inj stepped).symm⟩
          obtain ⟨last, wake, rfl⟩ := woken
          have running := accounted.running (by rw [waiting]; nofun)
          refine ⟨accounted.ledger.keep rfl rfl (by rw [waiting]; rfl) rfl, accounted.calls, nofun, nofun, ?_, ?_⟩
          · intro _
            exact accounted.inTime (by rw [waiting]; rfl)
          · intro back
            exact absurd (running.symm.trans back) nofun
      | flushing | committing | announcing | done => simp [batching, waiting] at stepped
  | take =>
      cases flushing : s.loop with
      | flushing last =>
          simp only [batching, flushing] at stepped
          by_cases empty : s.buf = []
          · rw [if_pos empty] at stepped
            cases stepped
            exact accounted_idle accounted flushing empty
          · rw [if_neg empty] at stepped
            cases stepped
            exact accounted_take accounted flushing empty
      | waiting | committing | announcing | done => simp [batching, flushing] at stepped
  | complete succeeds =>
      cases committing : s.loop with
      | committing batch last =>
          simp only [batching, committing] at stepped
          cases stepped
          exact accounted_complete accounted committing
      | waiting | flushing | announcing | done => simp [batching, committing] at stepped
  | announced =>
      cases announcing : s.loop with
      | announcing last =>
          simp only [batching, announcing] at stepped
          cases stepped
          have ledger : Balanced { s with loop := .next last } := by
            refine accounted.ledger.keep rfl rfl ?_ rfl
            rw [announcing, Loop.batch_next]
            rfl
          exact accounted_end accounted rfl rfl rfl (by rw [announcing]; rfl) ledger accounted.calls
            (accounted.running (by rw [announcing]; nofun))
      | waiting | flushing | committing | done => simp [batching, announcing] at stepped
  | closeReturns =>
      cases finished : s.loop with
      | done =>
          simp only [batching, finished, Option.ite_none_right_eq_some, Option.some.injEq] at stepped
          obtain ⟨_, rfl⟩ := stepped
          refine ⟨accounted.ledger.keep rfl rfl (by rw [finished]) rfl, accounted.calls, nofun, ?_, nofun, fun _ => rfl⟩
          exact fun _ => accounted.late (by rw [finished]; rfl)
      | waiting | flushing | committing | announcing => simp [batching, finished] at stepped

end

theorem accounted_start : Accounted {} := by
  have balanced : Balanced {} := by
    constructor <;> simp [State.pending, State.completed, Loop.batch]
  exact ⟨balanced, nofun, nofun, nofun, fun _ => rfl, nofun⟩

theorem accounted_of_reachable (reached : (batching size).Reachable {} s) : Accounted s := by
  refine reached.invariant accounted_start ?_
  intro before label after accounted _ stepped
  exact accounted_step accounted stepped

/-- Batches are never empty, so a call that fails refuses something. -/
theorem Accounted.refused_nil_iff (accounted : Accounted s) :
    s.completed false = [] ↔ ∀ call ∈ s.calls, call.2 = true := by
  simp only [State.completed, flatMap_eq_nil_iff, mem_filter]
  constructor
  · intro empty call member
    by_contra failed
    apply accounted.calls call member
    exact empty call ⟨member, by simpa using failed⟩
  · rintro succeeded call ⟨member, failed⟩
    rw [succeeded call member] at failed
    cases failed

theorem Accounted.pending_nil_iff (accounted : Accounted s) (returned : s.returned = true) :
    s.pending = [] ↔ ∀ res ∈ s.late, res.deliveryID = [] := by
  have finished := accounted.returned returned
  have late := accounted.late (by rw [finished]; rfl)
  rw [State.pending, finished, Loop.batch, eq_nil_iff_forall_not_mem]
  simp [late]

theorem State.Conserved.settled_iff (conserved : s.Conserved) : s.Settled ↔ s.pending = [] := by
  constructor
  · intro settled
    have lengths := conserved.length_eq.symm.trans settled.length_eq
    rw [length_append] at lengths
    exact eq_nil_of_length_eq_zero (by omega)
  · intro empty
    have conserved : s.added.Perm (s.pending ++ s.completed true) := conserved
    rwa [empty, nil_append] at conserved

/-- Results are kept if and only if each one names a delivery, no Complete fails,
and by the time close has returned none came too late for the last flush. -/
theorem results_kept_iff (size : Int) (s : State) (reached : (batching size).Reachable {} s) :
    (s.Conserved ∧ (s.returned = true → s.LastSucceeded → s.Settled)) ↔
      (∀ res ∈ s.added, res.deliveryID ≠ []) ∧ (∀ call ∈ s.calls, call.2 = true) ∧
        (s.returned = true → ∀ res ∈ s.late, res.deliveryID = []) := by
  have accounted := accounted_of_reachable reached
  have conserved_iff : s.Conserved ↔ (∀ res ∈ s.added, res.deliveryID ≠ []) ∧ ∀ call ∈ s.calls, call.2 = true := by
    rw [← accounted.refused_nil_iff]
    exact accounted.ledger.perm_iff
  constructor
  · rintro ⟨conserved, settled⟩
    obtain ⟨named, succeeded⟩ := conserved_iff.mp conserved
    refine ⟨named, succeeded, ?_⟩
    intro returned
    have last : s.LastSucceeded := fun call member => succeeded call (mem_of_mem_head? member)
    have empty := conserved.settled_iff.mp (settled returned last)
    exact (accounted.pending_nil_iff returned).mp empty
  · rintro ⟨named, succeeded, inTime⟩
    have conserved := conserved_iff.mpr ⟨named, succeeded⟩
    refine ⟨conserved, ?_⟩
    intro returned _
    exact conserved.settled_iff.mpr ((accounted.pending_nil_iff returned).mpr (inTime returned))

def sentResult : DeliveryResult :=
  { deliveryID := text "d1", newStatus := .sent }

def orderlyRun : List Step :=
  [.add sentResult none, .close, .wakeUp .closed, .take, .complete true, .announced, .closeReturns]

theorem orderlyRun_keeps_result : ∃ s, (batching 2).run {} orderlyRun = some s ∧ s.returned = true ∧
    s.added = [sentResult] ∧ s.Settled := by
  refine ⟨_, rfl, rfl, rfl, ?_⟩
  have ran : (batching 2).run {} orderlyRun = some _ := rfl
  have kept := (results_kept_iff 2 _ (System.reachable_of_run ran)).mpr ⟨by decide, by decide, by decide⟩
  exact kept.2 rfl (by decide)

def refusedRun : List Step :=
  [.add sentResult none, .wakeUp .tick, .take, .complete false]

theorem refused_result_is_lost : ∃ s, (batching 2).Reachable {} s ∧ s.added = [sentResult] ∧ s.pending = [] ∧
    s.completed true = [] ∧ ¬s.Conserved := by
  have ran : (batching 2).run {} refusedRun = some _ := rfl
  refine ⟨_, System.reachable_of_run ran, rfl, rfl, rfl, ?_⟩
  intro conserved
  exact absurd conserved.length_eq (by decide)

/-- Whatever fails, a result that names a delivery is waiting or was part of one
Complete, as often as it was added, and no other result is. -/
theorem handed_over_once (size : Int) (s : State) (reached : (batching size).Reachable {} s) :
    (s.added.filter (·.deliveryID ≠ [])).Perm (s.pending ++ s.completed true ++ s.completed false) := by
  have ledger := (accounted_of_reachable reached).ledger
  rw [perm_iff_count]
  intro res
  by_cases unnamed : res.deliveryID = []
  · rw [count_eq_zero.mpr (by simp [unnamed]), count_eq_zero.mpr fun member => ledger.named res member unnamed]
  · rw [count_filter (by simpa using unnamed), ledger.counted res unnamed, count_append, count_append]

theorem refused_handed_over : ∃ s, (batching 2).run {} refusedRun = some s ∧
    (s.added.filter (·.deliveryID ≠ [])).Perm (s.pending ++ s.completed true ++ s.completed false) := by
  have ran : (batching 2).run {} refusedRun = some _ := rfl
  exact ⟨_, ran, handed_over_once 2 _ (System.reachable_of_run ran)⟩

end Sendplane.Sender.Batching
