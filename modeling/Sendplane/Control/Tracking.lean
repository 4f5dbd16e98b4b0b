import Mathlib.Data.List.Perm.Basic
import Sendplane.Api.Tracking
import Sendplane.Data.Threads

namespace Sendplane.Control.Tracking

open Data Data.Threads Store Api List

def byTenant (batch : List TrackingEvent) : List (List TrackingEvent) :=
  (batch.map TrackingEvent.tenantID).dedup.map fun tenantID => batch.filter fun ev => ev.tenantID = tenantID

inductive Outcome where
  | noStore
  | insertFailed
  | inserted

/-- Where the loop is; `last` is set in the final flush. -/
inductive Loop where
  | unstarted
  /-- `started` is set and the goroutine is about to run. -/
  | launching
  | selecting
  | flushing (last : Bool)
  | writing (last : Bool) (groups : List (List TrackingEvent))
  | done

inductive Closing where
  | uncalled
  | marked (started : Bool)
  | stopped (started : Bool)
  /-- The final flush of a buffer whose loop was not started. -/
  | writing (groups : List (List TrackingEvent))
  | returned

inductive Wakeup where
  | ctxDone | stop | tick | wake
deriving DecidableEq

/-- Every critical section is a step; a flush writes outside the lock, tenant by tenant. -/
structure State where
  buffer : TrackingBuffer := {}
  flushed : Nat := 0
  failed : Nat := 0
  started : Bool := false
  cancelled : Bool := false
  stop : Bool := false
  wake : Bool := false
  /-- Handlers that saw a full buffer and have not signalled yet. -/
  signals : Nat := 0
  loop : Loop := .unstarted
  closing : Closing := .uncalled
  recorded : Nat := 0
  /-- The events that were buffered after the loop had taken the buffer for the last time. -/
  late : Nat := 0

def Loop.finished : Loop → Bool
  | .writing last _ => last
  | .done => true
  | .unstarted | .launching | .selecting | .flushing _ => false

def Loop.next (last : Bool) : Loop :=
  if last then .done else .selecting

def Loop.groups : Loop → List (List TrackingEvent)
  | .writing _ groups => groups
  | .unstarted | .launching | .selecting | .flushing _ | .done => []

def Closing.groups : Closing → List (List TrackingEvent)
  | .writing groups => groups
  | .uncalled | .marked _ | .stopped _ | .returned => []

inductive Step where
  | start
  | launch
  | cancel
  | record (ev : TrackingEvent) (newID : Text) (clock : Time)
  | signal
  | select (cause : Wakeup)
  | take
  | write (index : Nat) (outcome : Outcome)
  | finish
  | close
  | closeStop
  | closeTake
  | closeWrite (index : Nat) (outcome : Outcome)
  | closeReturn

def record (flushSize : Nat) (s : State) (ev : TrackingEvent) (newID : Text) (clock : Time) : State :=
  let buffer := s.buffer.record newID clock ev
  { s with
    buffer
    recorded := s.recorded + 1
    signals := if s.buffer.closed = false ∧ flushSize ≤ buffer.buf.length then s.signals + 1 else s.signals
    late := if s.buffer.closed = false ∧ s.loop.finished = true then s.late + 1 else s.late }

def State.taken (s : State) : State :=
  { s with buffer := { s.buffer with buf := [] } }

def State.count (s : State) (events : List TrackingEvent) : Outcome → State
  | .inserted => { s with flushed := s.flushed + events.length }
  | .noStore | .insertFailed => { s with failed := s.failed + events.length }

def State.select (s : State) : Wakeup → Option State
  | .ctxDone => if s.cancelled then some { s with loop := .flushing true } else none
  | .stop => if s.stop then some { s with loop := .flushing true } else none
  | .tick => some { s with loop := .flushing false }
  | .wake => if s.wake then some { s with wake := false, loop := .flushing false } else none

def tracking (flushSize : Nat) : System State Step where
  step
    | s, .start =>
        -- startOnce: only the first call does anything.
        if s.started then none else some { s with started := true, loop := .launching }
    | s, .launch =>
        match s.loop with
        | .launching => some { s with loop := .selecting }
        | _ => none
    | s, .cancel => some { s with cancelled := true }
    | s, .record ev newID clock => some (record flushSize s ev newID clock)
    | s, .signal =>
        -- A signal that finds one waiting is dropped.
        if s.signals = 0 then none else some { s with signals := s.signals - 1, wake := true }
    | s, .select cause =>
        match s.loop with
        | .selecting => s.select cause
        | _ => none
    | s, .take =>
        match s.loop with
        | .flushing last => some { s.taken with loop := .writing last (byTenant s.buffer.buf) }
        | _ => none
    | s, .write index outcome =>
        match s.loop with
        | .writing last groups =>
            -- The map of tenants has no order.
            groups[index]?.map fun events => { s.count events outcome with loop := .writing last (groups.eraseIdx index) }
        | _ => none
    | s, .finish =>
        match s.loop with
        | .writing last [] => some { s with loop := .next last }
        | _ => none
    | s, .close =>
        match s.closing with
        | .uncalled => some { s with buffer := { s.buffer with closed := true }, closing := .marked s.started }
        | _ => none
    | s, .closeStop =>
        match s.closing with
        | .marked started => some { s with stop := true, closing := .stopped started }
        | _ => none
    | s, .closeTake =>
        match s.closing with
        | .stopped false => some { s.taken with closing := .writing (byTenant s.buffer.buf) }
        | _ => none
    | s, .closeWrite index outcome =>
        match s.closing with
        | .writing groups =>
            groups[index]?.map fun events => { s.count events outcome with closing := .writing (groups.eraseIdx index) }
        | _ => none
    | s, .closeReturn =>
        match s.closing, s.loop with
        | .stopped true, .done | .writing [], _ => some { s with closing := .returned }
        | _, _ => none

def initial (maxBuffer : Nat) : State where
  buffer := { maxBuffer }

def events (groups : List (List TrackingEvent)) : Nat :=
  total List.length groups

theorem events_byTenant : events (byTenant batch) = batch.length := by
  rw [events, byTenant, total_map]
  exact total_filter TrackingEvent.tenantID

variable {groups : List (List TrackingEvent)} {index : Nat}

theorem events_eraseIdx (found : groups[index]? = some group) :
    group.length + events (groups.eraseIdx index) = events groups := by
  obtain ⟨bound, rfl⟩ := List.getElem?_eq_some_iff.mp found
  have perm : total length (_ :: groups.eraseIdx index) = total length groups :=
    total_perm (getElem_cons_eraseIdx_perm bound)
  rwa [total_cons] at perm

/-- No flush is under way. -/
def Quiet (s : State) : Prop :=
  s.loop.groups = [] ∧ s.closing.groups = []

def Closing.alone : Closing → Bool
  | .marked started | .stopped started => !started
  | .writing _ => true
  | .uncalled | .returned => false

/-- Where the recorded events are, and what a loop that has ended leaves behind. -/
structure Sound (maxBuffer : Nat) (s : State) : Prop where
  size : s.buffer.maxBuffer = maxBuffer
  bounded : s.buffer.buf.length ≤ maxBuffer
  conserved : s.recorded = s.buffer.buf.length + s.flushed + s.buffer.dropped + s.failed +
    events s.loop.groups + events s.closing.groups
  unstarted : s.started = false → s.loop = .unstarted
  closed : s.closing ≠ .uncalled → s.buffer.closed = true
  taken : s.loop.finished = true → s.late = 0 → s.buffer.buf = []
  late : 0 < s.late → s.loop.finished = true ∧ s.buffer.buf ≠ []
  alone : s.closing.alone = true → s.late = 0
  written : ∀ groups, s.closing = .writing groups → s.buffer.buf = []
  returned : s.closing = .returned → s.loop = .done ∨ (s.late = 0 ∧ s.buffer.buf = [])

theorem sound_initial : Sound maxBuffer (initial maxBuffer) := by
  constructor <;> simp [initial, events, Loop.groups, Closing.groups, Closing.alone]

variable {flushSize maxBuffer : Nat} {s next : State}

theorem Sound.onTime (sound : Sound maxBuffer s) (busy : s.loop.finished = false) : s.late = 0 := by
  by_contra some
  rw [(sound.late (Nat.pos_of_ne_zero some)).1] at busy
  cases busy

/-- The loop moves on while it has nothing to write and will take the buffer again. -/
theorem Sound.moveLoop (sound : Sound maxBuffer s) (busy : s.loop.finished = false) (idle : s.loop.groups = [])
    (unfinished : loop.finished = false) (empty : loop.groups = []) (begun : started = true) :
    Sound maxBuffer { s with loop, started } := by
  have onTime := sound.onTime busy
  refine ⟨sound.size, sound.bounded, ?_, ?_, sound.closed, ?_, ?_, sound.alone, sound.written, ?_⟩
  · have conserved := sound.conserved
    rw [idle] at conserved
    rwa [empty]
  · intro fresh
    rw [begun] at fresh
    cases fresh
  · intro finished
    rw [unfinished] at finished
    cases finished
  · intro positive
    exact absurd onTime (Nat.ne_of_gt positive)
  · intro returned
    rcases sound.returned returned with done | taken
    · rw [done] at busy
      cases busy
    · exact .inr taken

theorem Sound.begun (sound : Sound maxBuffer s) (running : s.loop ≠ .unstarted) : s.started = true := by
  by_contra fresh
  exact running (sound.unstarted (by simpa using fresh))

variable {last : Bool}

theorem Sound.take (sound : Sound maxBuffer s) (flushing : s.loop = .flushing last) :
    Sound maxBuffer { s.taken with loop := .writing last (byTenant s.buffer.buf) } := by
  have onTime := sound.onTime (by rw [flushing]; rfl)
  have begun := sound.begun (by rw [flushing]; nofun)
  refine ⟨sound.size, Nat.zero_le _, ?_, ?_, sound.closed, fun _ _ => rfl, ?_, sound.alone, fun _ _ => rfl,
    fun _ => .inr ⟨onTime, rfl⟩⟩
  · have conserved := sound.conserved
    have pending : events (Loop.writing last (byTenant s.buffer.buf)).groups = s.buffer.buf.length := events_byTenant
    have none : events s.loop.groups = 0 := by rw [flushing]; rfl
    simp only [State.taken, length_nil]
    omega
  · intro fresh
    exact absurd (begun.symm.trans fresh) nofun
  · intro positive
    exact absurd onTime (Nat.ne_of_gt positive)

theorem Sound.write (sound : Sound maxBuffer s) (outcome : Outcome) (writing : s.loop = .writing last groups)
    (found : groups[index]? = some group) :
    Sound maxBuffer { s.count group outcome with loop := .writing last (groups.eraseIdx index) } := by
  have begun := sound.begun (by rw [writing]; nofun)
  have same : s.loop.finished = last := by rw [writing]; rfl
  have pending : events s.loop.groups = events groups := by rw [writing]; rfl
  have split := events_eraseIdx found
  have conserved := sound.conserved
  have returned : s.closing = .returned → s.late = 0 ∧ s.buffer.buf = [] := by
    intro returned
    rcases sound.returned returned with done | taken
    · rw [done] at writing
      cases writing
    · exact taken
  have left : events (Loop.writing last (groups.eraseIdx index)).groups = events (groups.eraseIdx index) := rfl
  cases outcome <;>
  · refine ⟨sound.size, sound.bounded, ?_, ?_, sound.closed, ?_, ?_, sound.alone, sound.written, fun done => .inr (returned done)⟩
    · simp only [State.count]
      omega
    · intro fresh
      exact absurd (begun.symm.trans fresh) nofun
    · intro finished
      exact sound.taken (same.trans finished)
    · intro positive
      obtain ⟨finished, some⟩ := sound.late positive
      exact ⟨same.symm.trans finished, some⟩

theorem Sound.finish (sound : Sound maxBuffer s) (writing : s.loop = .writing last []) :
    Sound maxBuffer { s with loop := .next last } := by
  have begun := sound.begun (by rw [writing]; nofun)
  have same : s.loop.finished = last := by rw [writing]; rfl
  have finished : (Loop.next last).finished = last := by cases last <;> rfl
  have none : events s.loop.groups = 0 := by rw [writing]; rfl
  have empty : events (Loop.next last).groups = 0 := by cases last <;> rfl
  have conserved := sound.conserved
  refine ⟨sound.size, sound.bounded, ?_, ?_, sound.closed, ?_, ?_, sound.alone, sound.written, ?_⟩
  · dsimp only
    omega
  · intro fresh
    exact absurd (begun.symm.trans fresh) nofun
  · intro done
    exact sound.taken (same.trans (finished.symm.trans done))
  · intro positive
    obtain ⟨done, some⟩ := sound.late positive
    exact ⟨finished.trans (same.symm.trans done), some⟩
  · intro returned
    rcases sound.returned returned with done | taken
    · rw [done] at writing
      cases writing
    · exact .inr taken

theorem record_closed (closed : s.buffer.closed = true) : record flushSize s ev newID clock =
      { s with buffer := { s.buffer with dropped := s.buffer.dropped + 1 }, recorded := s.recorded + 1 } := by
  simp [record, TrackingBuffer.record, closed]

theorem record_open (flushSize : Nat) (sound : Sound maxBuffer s) (positive : 0 < maxBuffer) (unclosed : s.buffer.closed = false)
    (ev : TrackingEvent) (newID : Text) (clock : Time) :
    let b := (record flushSize s ev newID clock).buffer
    b.maxBuffer = s.buffer.maxBuffer ∧ b.closed = false ∧ b.buf ≠ [] ∧ b.buf.length ≤ maxBuffer ∧
      b.buf.length + b.dropped = s.buffer.buf.length + s.buffer.dropped + 1 := by
  have size := sound.size
  simp only [record, TrackingBuffer.record, unclosed, Bool.false_eq_true, ↓reduceIte, length_append,
    length_drop, length_cons, length_nil]
  refine ⟨trivial, trivial, by simp, ?_, ?_⟩ <;> omega

section

variable (sound : Sound maxBuffer s)
include sound

theorem Sound.record (positive : 0 < maxBuffer) (ev : TrackingEvent) (newID : Text) (clock : Time) :
    Sound maxBuffer (record flushSize s ev newID clock) := by
  have conserved := sound.conserved
  cases closed : s.buffer.closed with
  | true =>
      rw [record_closed closed]
      refine ⟨sound.size, sound.bounded, ?_, sound.unstarted, sound.closed, sound.taken, sound.late, sound.alone,
        sound.written, sound.returned⟩
      dsimp only
      omega
  | false =>
      obtain ⟨size, unclosed, some, bounded, moved⟩ := record_open flushSize sound positive closed ev newID clock
      have uncalled : s.closing = .uncalled := by
        by_contra called
        rw [sound.closed called] at closed
        cases closed
      have late : (Tracking.record flushSize s ev newID clock).late = if s.loop.finished = true then s.late + 1 else s.late := by
        simp [Tracking.record, closed]
      refine ⟨size.trans sound.size, bounded, ?_, sound.unstarted, ?_, ?_, ?_, ?_, ?_, ?_⟩
      · have same : (Tracking.record flushSize s ev newID clock).recorded = s.recorded + 1 := rfl
        have others : (Tracking.record flushSize s ev newID clock).flushed = s.flushed ∧
            (Tracking.record flushSize s ev newID clock).failed = s.failed ∧
            (Tracking.record flushSize s ev newID clock).loop = s.loop ∧
            (Tracking.record flushSize s ev newID clock).closing = s.closing := ⟨rfl, rfl, rfl, rfl⟩
        rw [others.2.2.1, others.2.2.2]
        omega
      · exact fun called => absurd uncalled called
      · intro finished none
        have finished : s.loop.finished = true := finished
        rw [late, if_pos finished] at none
        omega
      · intro positive
        refine ⟨?_, some⟩
        by_contra busy
        have busy : ¬s.loop.finished = true := busy
        rw [late, if_neg busy] at positive
        exact busy (sound.late positive).1
      · intro alone
        have alone : s.closing.alone = true := alone
        rw [uncalled] at alone
        cases alone
      · intro groups writing
        exact absurd (uncalled.symm.trans writing) nofun
      · intro returned
        exact absurd (uncalled.symm.trans returned) nofun

theorem Sound.close (uncalled : s.closing = .uncalled) :
    Sound maxBuffer { s with buffer := { s.buffer with closed := true }, closing := .marked s.started } := by
  have conserved := sound.conserved
  have none : events s.closing.groups = 0 := by rw [uncalled]; rfl
  refine ⟨sound.size, sound.bounded, ?_, sound.unstarted, fun _ => rfl, sound.taken, sound.late, ?_, nofun, nofun⟩
  · have empty : events (Closing.marked s.started).groups = 0 := rfl
    dsimp only
    omega
  · intro alone
    have fresh : s.started = false := by simpa [Closing.alone] using alone
    exact sound.onTime (by rw [sound.unstarted fresh]; rfl)

theorem Sound.closeStop (marked : s.closing = .marked started) :
    Sound maxBuffer { s with stop := true, closing := .stopped started } := by
  have conserved := sound.conserved
  have none : events s.closing.groups = 0 := by rw [marked]; rfl
  have called : s.closing ≠ .uncalled := by rw [marked]; nofun
  refine ⟨sound.size, sound.bounded, ?_, sound.unstarted, fun _ => sound.closed called, sound.taken, sound.late, ?_, nofun, nofun⟩
  · have empty : events (Closing.stopped started).groups = 0 := rfl
    dsimp only
    omega
  · intro alone
    apply sound.alone
    rw [marked]
    exact alone

theorem Sound.closeTake (stopped : s.closing = .stopped false) :
    Sound maxBuffer { s.taken with closing := .writing (byTenant s.buffer.buf) } := by
  have conserved := sound.conserved
  have none : events s.closing.groups = 0 := by rw [stopped]; rfl
  have called : s.closing ≠ .uncalled := by rw [stopped]; nofun
  have onTime : s.late = 0 := sound.alone (by rw [stopped]; rfl)
  refine ⟨sound.size, Nat.zero_le _, ?_, sound.unstarted, fun _ => sound.closed called, fun _ _ => rfl, ?_, fun _ => onTime,
    fun _ _ => rfl, nofun⟩
  · have pending : events (Closing.writing (byTenant s.buffer.buf)).groups = s.buffer.buf.length := events_byTenant
    simp only [State.taken, length_nil]
    omega
  · intro positive
    exact absurd onTime (Nat.ne_of_gt positive)

theorem Sound.closeWrite (outcome : Outcome) (writing : s.closing = .writing groups)
    (found : groups[index]? = some group) :
    Sound maxBuffer { s.count group outcome with closing := .writing (groups.eraseIdx index) } := by
  have conserved := sound.conserved
  have pending : events s.closing.groups = events groups := by rw [writing]; rfl
  have split := events_eraseIdx found
  have called : s.closing ≠ .uncalled := by rw [writing]; nofun
  have onTime : s.late = 0 := sound.alone (by rw [writing]; rfl)
  have left : events (Closing.writing (groups.eraseIdx index)).groups = events (groups.eraseIdx index) := rfl
  cases outcome <;>
  · refine ⟨sound.size, sound.bounded, ?_, sound.unstarted, fun _ => sound.closed called, sound.taken, sound.late,
      fun _ => onTime, fun _ _ => sound.written groups writing, nofun⟩
    simp only [State.count]
    omega

theorem Sound.closeReturn (ready : (s.closing = .stopped true ∧ s.loop = .done) ∨ s.closing = .writing []) :
    Sound maxBuffer { s with closing := .returned } := by
  have conserved := sound.conserved
  have none : events s.closing.groups = 0 := by
    rcases ready with ⟨stopped, _⟩ | writing
    · rw [stopped]
      rfl
    · rw [writing]
      rfl
  have called : s.closing ≠ .uncalled := by
    rcases ready with ⟨stopped, _⟩ | writing
    · rw [stopped]
      nofun
    · rw [writing]
      nofun
  refine ⟨sound.size, sound.bounded, ?_, sound.unstarted, fun _ => sound.closed called, sound.taken, sound.late, nofun,
    nofun, ?_⟩
  · have empty : events Closing.returned.groups = 0 := rfl
    dsimp only
    omega
  · intro _
    rcases ready with ⟨_, done⟩ | writing
    · exact .inl done
    · exact .inr ⟨sound.alone (by rw [writing]; rfl), sound.written [] writing⟩

end

theorem sound_step (positive : 0 < maxBuffer) (sound : Sound maxBuffer s)
    (stepped : (tracking flushSize).step s step = some next) : Sound maxBuffer next := by
  cases step <;> simp only [tracking] at stepped
  case start =>
    split_ifs at stepped with started
    cases stepped
    have unstarted := sound.unstarted (by simpa using started)
    exact sound.moveLoop (by rw [unstarted]; rfl) (by rw [unstarted]; rfl) rfl rfl rfl
  case launch =>
    split at stepped <;> cases stepped
    next launching =>
      have begun := sound.begun (by rw [launching]; nofun)
      exact sound.moveLoop (by rw [launching]; rfl) (by rw [launching]; rfl) rfl rfl begun
  case cancel =>
    cases stepped
    exact { sound with }
  case record ev newID clock =>
    cases stepped
    exact sound.record positive ev newID clock
  case signal =>
    split_ifs at stepped
    cases stepped
    exact { sound with }
  case select cause =>
    split at stepped
    next selecting =>
      have begun := sound.begun (by rw [selecting]; nofun)
      have moved (last : Bool) : Sound maxBuffer { s with loop := .flushing last } :=
        sound.moveLoop (by rw [selecting]; rfl) (by rw [selecting]; rfl) rfl rfl begun
      cases cause with
      | ctxDone | stop =>
          simp only [State.select] at stepped
          split_ifs at stepped
          cases stepped
          exact moved true
      | tick =>
          cases stepped
          exact moved false
      | wake =>
          simp only [State.select] at stepped
          split_ifs at stepped
          cases stepped
          exact { moved false with }
    · cases stepped
  case take =>
    split at stepped <;> cases stepped
    next last flushing => exact sound.take flushing
  case write index outcome =>
    split at stepped
    next last groups writing =>
      obtain ⟨group, found, rfl⟩ := Option.map_eq_some_iff.mp stepped
      exact sound.write outcome writing found
    · cases stepped
  case finish =>
    split at stepped <;> cases stepped
    next last writing => exact sound.finish writing
  case close =>
    split at stepped <;> cases stepped
    next uncalled => exact sound.close uncalled
  case closeStop =>
    split at stepped <;> cases stepped
    next started marked => exact sound.closeStop marked
  case closeTake =>
    split at stepped <;> cases stepped
    next stopped => exact sound.closeTake stopped
  case closeWrite index outcome =>
    split at stepped
    next groups writing =>
      obtain ⟨group, found, rfl⟩ := Option.map_eq_some_iff.mp stepped
      exact sound.closeWrite outcome writing found
    · cases stepped
  case closeReturn =>
    split at stepped <;> cases stepped
    next stopped done => exact sound.closeReturn (.inl ⟨stopped, done⟩)
    next writing => exact sound.closeReturn (.inr writing)

theorem sound_of_reachable (positive : 0 < maxBuffer)
    (reached : (tracking flushSize).Reachable (initial maxBuffer) s) : Sound maxBuffer s := by
  refine reached.invariant sound_initial ?_
  intro before step after sound _ stepped
  exact sound_step positive sound stepped

structure Over (late : Nat) (s : State) : Prop where
  returned : s.closing = .returned
  closed : s.buffer.closed = true
  late : s.late = late

theorem over_step (finished : Over late s) (stepped : (tracking flushSize).step s step = some next) :
    Over late next := by
  obtain ⟨returned, closed, same⟩ := finished
  cases step <;> simp only [tracking] at stepped
  case record ev newID clock =>
    cases stepped
    rw [record_closed closed]
    exact ⟨returned, closed, same⟩
  case cancel =>
    cases stepped
    exact ⟨returned, closed, same⟩
  case start | signal =>
    split_ifs at stepped
    cases stepped
    exact ⟨returned, closed, same⟩
  case launch | take | finish =>
    split at stepped <;> cases stepped
    exact ⟨returned, closed, same⟩
  case select cause =>
    split at stepped
    · cases cause with
      | tick =>
          cases stepped
          exact ⟨returned, closed, same⟩
      | ctxDone | stop | wake =>
          simp only [State.select] at stepped
          split_ifs at stepped
          cases stepped
          exact ⟨returned, closed, same⟩
    · cases stepped
  case write index outcome =>
    split at stepped
    · obtain ⟨group, _, rfl⟩ := Option.map_eq_some_iff.mp stepped
      cases outcome <;> exact ⟨returned, closed, same⟩
    · cases stepped
  case close | closeStop | closeTake | closeWrite | closeReturn =>
    simp only [returned] at stepped
    cases stepped

/-- Every Record call is accounted for and the buffer stays bounded; once Close
has returned the buffer is empty for good exactly when nothing was buffered
after the loop's last flush had taken it. -/
theorem events_accounted (flushSize : Nat) (positive : 0 < maxBuffer)
    (reached : (tracking flushSize).Reachable (initial maxBuffer) s) :
    (Quiet s → s.recorded = s.buffer.buf.length + s.flushed + s.buffer.dropped + s.failed) ∧
      s.buffer.buf.length ≤ maxBuffer ∧ (s.closing = .returned →
        ((∀ later, (tracking flushSize).Reachable s later → later.buffer.buf = []) ↔ s.late = 0)) := by
  have sound := sound_of_reachable positive reached
  refine ⟨?_, sound.bounded, ?_⟩
  · rintro ⟨loop, closing⟩
    have conserved := sound.conserved
    rw [loop, closing] at conserved
    simpa [events] using conserved
  · intro returned
    constructor
    · intro empty
      by_contra some
      exact (sound.late (Nat.pos_of_ne_zero some)).2 (empty s .refl)
    · intro onTime later continued
      have start : Over 0 s := ⟨returned, sound.closed (by rw [returned]; nofun), onTime⟩
      have finished : Over 0 later := by
        refine continued.invariant start ?_
        intro before step after finished _ stepped
        exact over_step finished stepped
      have final : Sound maxBuffer later := sound_of_reachable positive (reached.trans continued)
      rcases final.returned finished.returned with done | taken
      · exact final.taken (by rw [done]; rfl) finished.late
      · exact taken.2

def opened : TrackingEvent where
  id := text "e1"
  tenantID := text "t1"
  createdAt := 1000000

def closingRun : List Step :=
  [.start, .launch, .record opened [] 0, .close, .closeStop, .select .stop, .take, .write 0 .inserted, .finish, .closeReturn]

theorem closingRun_empty :
    ∃ s, (tracking 500).run (initial 100000) closingRun = some s ∧ s.recorded = 1 ∧ s.flushed = 1 ∧
      ∀ later, (tracking 500).Reachable s later → later.buffer.buf = [] := by
  have ran : (tracking 500).run (initial 100000) closingRun = some _ := rfl
  refine ⟨_, ran, rfl, rfl, ?_⟩
  exact ((events_accounted 500 (by decide) (System.reachable_of_run ran)).2.2 rfl).mpr rfl

/-- The context is cancelled, the loop makes its final flush, and an event comes
before Close. -/
def cancelledRun : List Step :=
  [.start, .launch, .cancel, .select .ctxDone, .take, .finish, .record opened [] 0, .close, .closeStop, .closeReturn]

theorem event_left_after_close :
    ∃ s, (tracking 500).Reachable (initial 100000) s ∧ s.closing = .returned ∧ s.buffer.buf.length = 1 := by
  have ran : (tracking 500).run (initial 100000) cancelledRun = some _ := rfl
  exact ⟨_, System.reachable_of_run ran, rfl, rfl⟩

end Sendplane.Control.Tracking
