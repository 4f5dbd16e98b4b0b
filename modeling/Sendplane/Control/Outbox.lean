import Sendplane.Data.System
import Sendplane.Memstore.Outbox

namespace Sendplane.Control.Outbox

open Data Store Memstore Outbox List Option

/-! # Dispatching the outbox

Any number of dispatchers work on one outbox.  Nothing ties the outcome of a
tick to its claim, so one whose lease has run out goes on like any other.
-/

structure Config where
  outboxMaxAttempts : Int := 10
  outboxBackoff : List Duration := [minute, 5 * minute, 30 * minute, 2 * hour, 12 * hour]

/-- The wait after the nth failure; the last entry serves for every later one. -/
def backoffFor (schedule : List Duration) (n : Int) : Duration :=
  if schedule = [] then minute
  else
    let n := if n < 1 then 1 else n
    let n := if n > schedule.length then (schedule.length : Int) else n
    schedule.getD (n - 1).toNat 0

def maxOutboxErrLen : Nat := 1024

def truncateErr (message : Text) : Text :=
  if message.length > maxOutboxErrLen then message.take maxOutboxErrLen ++ text "…" else message

/-- When to try again after this failure; the zero time for never. -/
def nextAttempt (cfg : Config) (ev : OutboxEvent) (now : Time) : Time :=
  if ev.attempts + 1 < cfg.outboxMaxAttempts then now + backoffFor cfg.outboxBackoff (ev.attempts + 1) else 0

/-- How far a tick has got with a claimed event. -/
inductive Stage where
  | claimed
  | unsubscribed
  | queued
  | emitted (failure : Option Text)
deriving DecidableEq

structure Job where
  event : OutboxEvent
  now : Time
  stage : Stage

def Job.failed (job : Job) : Bool :=
  match job.stage with
  | .emitted (some _) => true
  | .emitted none | .claimed | .unsubscribed | .queued => false

structure State where
  outbox : Table Text OutboxEvent := ∅
  jobs : List Job := []
  /-- The events whose emit has failed, once for each failure. -/
  failures : List Text := []

inductive Step where
  | enqueue (clock : Time) (tenant newID : Text) (e : OutboxEvent)
  | claim (limit : Int) (lease : Duration) (owner : Text) (now : Time)
  | filter (index : Nat) (settings : Option TenantSettings)
  | emit (index : Nat) (failure : Option Text)
  /-- The outcome is written at `clock`, unless the call fails. -/
  | mark (index : Nat) (clock : Time) (fails : Bool)
  | abandon (index : Nat)
  | reset (id : Text) (now : Time)

def record (cfg : Config) (job : Job) (clock : Time) (outbox : Table Text OutboxEvent) : Table Text OutboxEvent :=
  match job.stage with
  | .emitted (some failure) =>
      (Outbox.markFailed job.event.id (nextAttempt cfg job.event job.now) (truncateErr failure) outbox).2
  | .emitted none | .unsubscribed => (Outbox.markDelivered job.event.id (truncateTime clock) outbox).2
  | .claimed | .queued => outbox

def Job.done (job : Job) : Bool :=
  match job.stage with
  | .emitted _ | .unsubscribed => true
  | .claimed | .queued => false

def filtered (settings : Option TenantSettings) (job : Job) : Job :=
  match settings with
  | some settings =>
      { job with stage := if settings.subscribedTo job.event.type then .queued else .unsubscribed }
  | none => { job with stage := .queued }

def step (cfg : Config) (s : State) : Step → Option State
  | .enqueue clock tenant newID e =>
      let e := TenantStore.enqueuedEvent tenant clock newID e
      -- Producers enqueue events of their own, without attempts.
      if e.attempts = 0 ∧ s.outbox[e.id]? = none then some { s with outbox := s.outbox.insert e.id e } else none
  | .claim limit lease owner now =>
      let claimed := Outbox.claimPending limit lease owner now s.outbox
      -- `WithOwner` ignores an empty name.
      if owner ≠ [] then
        some { s with outbox := claimed.2, jobs := s.jobs ++ claimed.1.map fun event => ⟨event, now, .claimed⟩ }
      else none
  | .filter index settings =>
      s.jobs[index]?.bind fun job =>
        if job.stage = .claimed then some { s with jobs := s.jobs.set index (filtered settings job) } else none
  | .emit index failure =>
      s.jobs[index]?.bind fun job =>
        if job.stage = .queued then
          some { s with
            jobs := s.jobs.set index { job with stage := .emitted failure }
            failures := if failure.isSome then job.event.id :: s.failures else s.failures }
        else none
  | .mark index clock fails =>
      s.jobs[index]?.bind fun job =>
        if job.done then
          some { s with
            outbox := if fails then s.outbox else record cfg job clock s.outbox
            jobs := s.jobs.eraseIdx index }
        else none
  | .abandon index => s.jobs[index]?.map fun _ => { s with jobs := s.jobs.eraseIdx index }
  | .reset id now => some { s with outbox := (Outbox.reset id now s.outbox).2 }

def system (cfg : Config) : System State Step where
  step := step cfg

def unrecorded (jobs : List Job) (id : Text) : Nat :=
  jobs.countP fun job => job.failed && job.event.id = id

section Jobs

variable {index : Nat} {id : Text}

theorem split_at_job (found : jobs[index]? = some job) :
    ∃ earlier later, jobs = earlier ++ job :: later ∧ jobs.eraseIdx index = earlier ++ later ∧
      ∀ replaced, jobs.set index replaced = earlier ++ replaced :: later := by
  obtain ⟨bound, here⟩ := List.getElem?_eq_some_iff.mp found
  refine ⟨jobs.take index, jobs.drop (index + 1), ?_, eraseIdx_eq_take_drop_succ jobs index, ?_⟩
  · rw [← here, getElem_cons_drop bound, take_append_drop]
  · intro replaced
    rw [set_eq_take_append_cons_drop, if_pos bound]

theorem unrecorded_eraseIdx (found : jobs[index]? = some job) (id : Text) :
    unrecorded (jobs.eraseIdx index) id + (if job.failed ∧ job.event.id = id then 1 else 0) = unrecorded jobs id := by
  obtain ⟨earlier, later, whole, erased, -⟩ := split_at_job found
  rw [erased, whole]
  simp only [unrecorded, countP_append, countP_cons, Bool.and_eq_true, decide_eq_true_eq]
  omega

theorem unrecorded_set (found : jobs[index]? = some job) (before : job.failed = false) :
    unrecorded (jobs.set index replaced) id =
      unrecorded jobs id + if replaced.failed ∧ replaced.event.id = id then 1 else 0 := by
  obtain ⟨earlier, later, whole, -, set⟩ := split_at_job found
  rw [set, whole]
  simp only [unrecorded, countP_append, countP_cons, before, Bool.and_eq_true, decide_eq_true_eq,
    Bool.false_eq_true, false_and, ↓reduceIte]
  omega

theorem unrecorded_append (quiet : ∀ job ∈ fresh, job.failed = false) :
    unrecorded (jobs ++ fresh) id = unrecorded jobs id := by
  have none : fresh.countP (fun job => job.failed && job.event.id = id) = 0 := by
    rw [countP_eq_zero]
    intro job member
    simp [quiet job member]
  rw [unrecorded, countP_append, none, Nat.add_zero, ← unrecorded]

end Jobs

/-- The copy of a job has no more attempts than its event has had failed emits,
its own included. -/
def Job.Counted (failures : List Text) (job : Job) : Prop :=
  job.event.attempts + (if job.failed then 1 else 0) ≤ failures.count job.event.id

/-- No attempt is counted that was not a failed emit. -/
structure Counted (cfg : Config) (s : State) : Prop where
  keyed : ∀ (id : Text) e, s.outbox[id]? = some e → e.id = id
  emits : ∀ id, unrecorded s.jobs id ≤ s.failures.count id
  attempts : ∀ (id : Text) e, s.outbox[id]? = some e → e.attempts + unrecorded s.jobs id ≤ s.failures.count id
  jobs : ∀ job ∈ s.jobs, job.Counted s.failures
  dead : ∀ (id : Text) e, s.outbox[id]? = some e → e.status = .failed → cfg.outboxMaxAttempts ≤ s.failures.count id

/-- A failed emit is recorded while the event still carries the owner and the
end of the claim behind it, and a retry is not due at the zero time. -/
def RecordsInTime (cfg : Config) (s : State) (job : Job) : Prop :=
  job.failed = true →
    (∀ e ∈ s.outbox[job.event.id]?, e.leaseOwner = job.event.leaseOwner ∧ e.leaseUntil = job.event.leaseUntil) ∧
    (job.event.attempts + 1 < cfg.outboxMaxAttempts →
      job.now + backoffFor cfg.outboxBackoff (job.event.attempts + 1) ≠ 0)

instance (cfg : Config) (s : State) (job : Job) : Decidable (RecordsInTime cfg s job) :=
  inferInstanceAs (Decidable (_ → _))

def Orderly (cfg : Config) (s : State) : Step → Prop
  | .mark index _ false => ∀ job ∈ s.jobs[index]?, RecordsInTime cfg s job
  | .mark _ _ true | .enqueue .. | .claim .. | .filter .. | .emit .. | .abandon _ | .reset .. => True

instance (cfg : Config) (s : State) : (label : Step) → Decidable (Orderly cfg s label)
  | .mark index _ false => inferInstanceAs (Decidable (∀ job ∈ s.jobs[index]?, RecordsInTime cfg s job))
  | .mark _ _ true | .enqueue .. | .claim .. | .filter .. | .emit .. | .abandon _ | .reset .. => .isTrue trivial

section Preserved

variable {cfg : Config} {s next : State}

/-- A row that counts no more attempts than the one it comes from, and is no new
dead letter. -/
def Follows (old e : OutboxEvent) : Prop :=
  e.id = old.id ∧ (e.attempts = old.attempts ∨ e.attempts = 0) ∧ (e.status = .failed → old.status = .failed)

theorem Follows.refl (e : OutboxEvent) : Follows e e :=
  ⟨rfl, .inl rfl, id⟩

theorem Counted.outbox {outbox : Table Text OutboxEvent} {jobs : List Job} (counted : Counted cfg s)
    (fewer : ∀ id, unrecorded jobs id ≤ unrecorded s.jobs id) (known : ∀ job ∈ jobs, job.Counted s.failures)
    (rows : ∀ (id : Text) e, outbox[id]? = some e → ∃ old, s.outbox[id]? = some old ∧ Follows old e) :
    Counted cfg { s with outbox, jobs } where
  keyed id e stored := by
    obtain ⟨old, found, same, -⟩ := rows id e stored
    exact same.trans (counted.keyed id old found)
  emits id := (fewer id).trans (counted.emits id)
  attempts id e stored := by
    obtain ⟨old, found, -, kept, -⟩ := rows id e stored
    have before := counted.attempts id old found
    have emits := counted.emits id
    have unmarked := fewer id
    dsimp only
    omega
  jobs := known
  dead id e stored failed := by
    obtain ⟨old, found, -, -, status⟩ := rows id e stored
    exact counted.dead id old found (status failed)

variable {index : Nat}

theorem moved_job {guard : Job → Prop} [DecidablePred guard] {change : Job → State}
    (stepped : (s.jobs[index]?.bind fun job => if guard job then some (change job) else none) = some next) :
    ∃ job, s.jobs[index]? = some job ∧ guard job ∧ change job = next := by
  obtain ⟨job, found, moved⟩ := bind_eq_some_iff.mp stepped
  simp only [ite_none_right_eq_some, some.injEq] at moved
  exact ⟨job, found, moved⟩

section

variable (counted : Counted cfg s)
include counted

theorem Counted.erase (found : s.jobs[index]? = some job) : Counted cfg { s with jobs := s.jobs.eraseIdx index } := by
  apply counted.outbox
  · intro id
    have erased := unrecorded_eraseIdx found id
    omega
  · intro other member
    exact counted.jobs other (mem_of_mem_eraseIdx member)
  · intro id e stored
    exact ⟨e, stored, .refl e⟩

theorem Counted.stage {stage : Stage} (found : s.jobs[index]? = some job) (before : job.failed = false)
    (quiet : ({ job with stage } : Job).failed = false) :
    Counted cfg { s with jobs := s.jobs.set index { job with stage } } := by
  apply counted.outbox
  · intro id
    rw [unrecorded_set found before, quiet]
    simp
  · intro other member
    rcases mem_or_eq_of_mem_set member with kept | rfl
    · exact counted.jobs other kept
    · have known := counted.jobs job (mem_of_getElem? found)
      simp only [Job.Counted, before, quiet, Bool.false_eq_true] at known ⊢
      exact known
  · intro id e stored
    exact ⟨e, stored, .refl e⟩

theorem Counted.enqueue {e : OutboxEvent} (attempts : e.attempts = 0) (pending : e.status = .pending)
    (fresh : s.outbox[e.id]? = none) : Counted cfg { s with outbox := s.outbox.insert e.id e } := by
  have rows : ∀ (id : Text) row, (s.outbox.insert e.id e)[id]? = some row →
      id = e.id ∧ row = e ∨ s.outbox[id]? = some row := by
    intro id row stored
    rw [Table.get_insert] at stored
    split at stored
    · rename_i same
      exact .inl ⟨same.symm, (some.inj stored).symm⟩
    · exact .inr stored
  constructor
  case keyed =>
    intro id row stored
    rcases rows id row stored with ⟨rfl, rfl⟩ | before
    · rfl
    · exact counted.keyed id row before
  case emits => exact counted.emits
  case attempts =>
    intro id row stored
    rcases rows id row stored with ⟨rfl, rfl⟩ | before
    · have emits := counted.emits row.id
      dsimp only
      omega
    · exact counted.attempts id row before
  case jobs => exact counted.jobs
  case dead =>
    intro id row stored failed
    rcases rows id row stored with ⟨rfl, rfl⟩ | before
    · rw [pending] at failed
      cases failed
    · exact counted.dead id row before failed

theorem Counted.claim : Counted cfg { s with
      outbox := (claimPending limit lease owner now s.outbox).2
      jobs := s.jobs ++ (claimPending limit lease owner now s.outbox).1.map
        fun event => ⟨event, now, .claimed⟩ } := by
  have rows : ∀ (id : Text) e, (claimPending limit lease owner now s.outbox).2[id]? = some e →
      ∃ old, s.outbox[id]? = some old ∧ Follows old e := by
    intro id e stored
    obtain ⟨old, found, rfl | ⟨-, rfl⟩⟩ := (claimPending_changes).origin stored
    · exact ⟨e, found, .refl e⟩
    · exact ⟨old, found, .refl old⟩
  apply counted.outbox _ _ rows
  · intro id
    rw [unrecorded_append]
    intro job member
    obtain ⟨event, -, rfl⟩ := mem_map.mp member
    rfl
  · intro job member
    rcases mem_append.mp member with kept | claimed
    · exact counted.jobs job kept
    · obtain ⟨event, taken, rfl⟩ := mem_map.mp claimed
      obtain ⟨-, id, stored⟩ := mem_claimPending taken
      obtain ⟨old, found, sameID, kept, -⟩ := rows id event stored
      have keyed := counted.keyed id old found
      have before := counted.attempts id old found
      simp only [Job.Counted, Job.failed, Bool.false_eq_true, ↓reduceIte]
      rw [sameID, keyed]
      omega

attribute [local simp] Job.failed

theorem Counted.emit {failure : Text} (found : s.jobs[index]? = some job) (queued : job.stage = .queued) :
    Counted cfg { s with
      jobs := s.jobs.set index { job with stage := .emitted (some failure) }
      failures := job.event.id :: s.failures } := by
  have quiet : job.failed = false := by simp [queued]
  have more : ∀ id, s.failures.count id ≤ (job.event.id :: s.failures).count id := fun id => count_le_count_cons
  have known := counted.jobs job (mem_of_getElem? found)
  have unmarked : ∀ id, unrecorded (s.jobs.set index { job with stage := .emitted (some failure) }) id =
      unrecorded s.jobs id + if job.event.id = id then 1 else 0 := by
    intro id
    rw [unrecorded_set found quiet]
    simp
  constructor
  case keyed => exact counted.keyed
  case emits =>
    intro id
    have before := counted.emits id
    rw [unmarked, count_cons]
    simp only [beq_iff_eq]
    omega
  case attempts =>
    intro id e stored
    have before := counted.attempts id e stored
    rw [unmarked, count_cons]
    simp only [beq_iff_eq]
    split <;> push_cast <;> omega
  case jobs =>
    intro other member
    rcases mem_or_eq_of_mem_set member with kept | rfl
    · have before := counted.jobs other kept
      have grown := more other.event.id
      simp only [Job.Counted] at before ⊢
      omega
    · simp only [Job.Counted, quiet, Bool.false_eq_true] at known
      simp only [Job.Counted, count_cons_self]
      omega
  case dead =>
    intro id e stored failed
    have before := counted.dead id e stored failed
    have grown := more id
    dsimp only
    omega

theorem Counted.fail (found : s.jobs[index]? = some job) (failed : job.failed = true)
    (retried : job.event.attempts + 1 < cfg.outboxMaxAttempts →
      job.now + backoffFor cfg.outboxBackoff (job.event.attempts + 1) ≠ 0) :
    Counted cfg { s with
      outbox := (markFailed job.event.id (nextAttempt cfg job.event job.now) message s.outbox).2
      jobs := s.jobs.eraseIdx index } := by
  have erased := counted.erase found
  have known := counted.jobs job (mem_of_getElem? found)
  have changes := change_changes s.outbox job.event.id
    (failedEvent (nextAttempt cfg job.event job.now) message)
  simp only [Job.Counted, failed, ↓reduceIte] at known
  constructor
  case keyed =>
    intro id e stored
    obtain ⟨old, before, rfl | ⟨rfl, rfl⟩⟩ := changes.origin stored
    · exact counted.keyed id e before
    · have same := counted.keyed _ old before
      unfold failedEvent
      split <;> exact same
  case emits => exact erased.emits
  case attempts =>
    intro id e stored
    obtain ⟨old, before, rfl | ⟨rfl, rfl⟩⟩ := changes.origin stored
    · exact erased.attempts id e before
    · have bounded := counted.attempts _ old before
      have removed := unrecorded_eraseIdx found job.event.id
      have counts : (failedEvent (nextAttempt cfg job.event job.now) message old).attempts = old.attempts + 1 := by
        unfold failedEvent
        split <;> rfl
      simp only [failed, and_self, ↓reduceIte] at removed
      dsimp only
      omega
  case jobs => exact erased.jobs
  case dead =>
    intro id e stored dead
    obtain ⟨old, before, rfl | ⟨rfl, rfl⟩⟩ := changes.origin stored
    · exact counted.dead id e before dead
    · by_cases again : job.event.attempts + 1 < cfg.outboxMaxAttempts
      · have later := retried again
        rw [nextAttempt, if_pos again, failedEvent, if_neg later] at dead
        cases dead
      · dsimp only
        omega

theorem Counted.change {id : Text} (sameID : ∀ e, (f e).id = e.id)
    (attempts : ∀ e, (f e).attempts = e.attempts ∨ (f e).attempts = 0) (alive : ∀ e, (f e).status ≠ .failed) :
    Counted cfg { s with outbox := (change id f s.outbox).2 } := by
  apply counted.outbox (fun _ => Nat.le_refl _) counted.jobs
  intro key e stored
  obtain ⟨old, before, rfl | ⟨rfl, rfl⟩⟩ := (change_changes s.outbox id f).origin stored
  · exact ⟨e, before, .refl e⟩
  · exact ⟨old, before, sameID old, attempts old, fun failed => absurd failed (alive old)⟩

theorem Counted.deliver {id : Text} : Counted cfg { s with outbox := (markDelivered id time s.outbox).2 } :=
  counted.change (fun _ => rfl) (fun _ => .inl rfl) (fun _ => by simp [deliveredEvent])

theorem Counted.reset {id : Text} {now : Time} : Counted cfg { s with outbox := (reset id now s.outbox).2 } :=
  counted.change (fun _ => rfl) (fun _ => .inr rfl) (fun _ => by simp [resetEvent])

theorem Counted.record {clock : Time} (found : s.jobs[index]? = some job) (inTime : RecordsInTime cfg s job) :
    Counted cfg { s with outbox := record cfg job clock s.outbox, jobs := s.jobs.eraseIdx index } := by
  have erased := counted.erase found
  unfold Outbox.record
  cases stage : job.stage with
  | claimed | queued => exact erased
  | unsubscribed => exact erased.deliver
  | emitted failure =>
      cases failure with
      | none => exact erased.deliver
      | some failure =>
          have failed : job.failed = true := by simp [stage]
          exact counted.fail found failed (inTime failed).2

theorem counted_step {label : Step} (orderly : Orderly cfg s label) (stepped : step cfg s label = some next) :
    Counted cfg next := by
  cases label with
  | enqueue clock tenant newID e =>
      simp only [step, ite_none_right_eq_some, some.injEq] at stepped
      obtain ⟨⟨attempts, fresh⟩, rfl⟩ := stepped
      exact counted.enqueue attempts rfl fresh
  | claim limit lease owner now =>
      simp only [step, ite_none_right_eq_some, some.injEq] at stepped
      obtain ⟨-, rfl⟩ := stepped
      exact counted.claim
  | filter index settings =>
      obtain ⟨job, found, claimed, rfl⟩ := moved_job stepped
      have quiet : job.failed = false := by simp [claimed]
      cases settings with
      | none => exact counted.stage found quiet rfl
      | some settings =>
          apply counted.stage found quiet
          by_cases subscribed : settings.subscribedTo job.event.type = true
          · simp [subscribed]
          · simp [subscribed]
  | emit index failure =>
      obtain ⟨job, found, queued, rfl⟩ := moved_job stepped
      cases failure with
      | none => exact counted.stage found (by simp [queued]) rfl
      | some failure => exact counted.emit found queued
  | mark index clock fails =>
      obtain ⟨job, found, done, rfl⟩ := moved_job stepped
      cases fails with
      | true => exact counted.erase found
      | false => exact counted.record found (orderly job found)
  | abandon index =>
      obtain ⟨job, found, rfl⟩ := map_eq_some_iff.mp stepped
      exact counted.erase found
  | reset id now =>
      cases stepped
      exact counted.reset

end

end Preserved

def Delivered (outbox : Table Text OutboxEvent) (id : Text) : Prop :=
  ∃ e, outbox[id]? = some e ∧ e.status = .delivered

theorem delivered_of_changes {before after : Table Text OutboxEvent} {id : Text}
    (changes : Table.Changes allowed before after)
    (kept : ∀ old new, before[id]? = some old → old.status = .delivered → allowed id old new → new.status = .delivered)
    (delivered : Delivered before id) : Delivered after id := by
  obtain ⟨old, stored, status⟩ := delivered
  obtain ⟨new, found, rfl | moved⟩ := changes.get stored
  · exact ⟨new, found, status⟩
  · exact ⟨new, found, kept old new stored status moved⟩

variable {cfg : Config} {s : State}

/-- A delivered event is not leased, and every job is behind a claim. -/
structure Fenced (s : State) : Prop where
  delivered : ∀ (id : Text) e, s.outbox[id]? = some e → e.status = .delivered → e.leaseOwner = []
  jobs : ∀ job ∈ s.jobs, job.event.leaseOwner ≠ []

theorem Fenced.outbox {outbox : Table Text OutboxEvent} {jobs : List Job} (fenced : Fenced s)
    (changes : Table.Changes (fun _ _ new => new.status = .delivered → new.leaseOwner = []) s.outbox outbox)
    (known : ∀ job ∈ jobs, job.event.leaseOwner ≠ []) : Fenced { s with outbox, jobs } where
  delivered id e stored status := by
    obtain ⟨old, found, rfl | unleased⟩ := changes.origin stored
    · exact fenced.delivered id e found status
    · exact unleased status
  jobs := known

theorem record_unleases (job : Job) (clock : Time) (outbox : Table Text OutboxEvent) :
    Table.Changes (fun _ _ new => new.status = .delivered → new.leaseOwner = []) outbox
      (record cfg job clock outbox) := by
  have marked : ∀ {f : OutboxEvent → OutboxEvent}, (∀ e, (f e).leaseOwner = []) →
      Table.Changes (fun _ _ new => new.status = .delivered → new.leaseOwner = []) outbox
        (change job.event.id f outbox).2 := by
    intro f unleased
    apply (change_changes outbox _ f).imp
    rintro _ old _ - ⟨-, rfl⟩ -
    exact unleased old
  unfold record
  split
  · apply marked
    intro e
    unfold failedEvent
    split <;> rfl
  · exact marked fun _ => rfl
  · exact marked fun _ => rfl
  · exact .refl _
  · exact .refl _

theorem fenced_step {next : State} (fenced : Fenced s) (stepped : step cfg s label = some next) : Fenced next := by
  have staged : ∀ {index : Nat} {job : Job} {stage : Stage}, s.jobs[index]? = some job →
      ∀ other ∈ s.jobs.set index { job with stage }, other.event.leaseOwner ≠ [] := by
    intro index job stage found other member
    rcases mem_or_eq_of_mem_set member with kept | rfl
    · exact fenced.jobs other kept
    · exact fenced.jobs job (mem_of_getElem? found)
  have fewer : ∀ {index : Nat}, ∀ job ∈ s.jobs.eraseIdx index, job.event.leaseOwner ≠ [] :=
    fun job member => fenced.jobs job (mem_of_mem_eraseIdx member)
  cases label with
  | enqueue clock tenant newID e =>
      simp only [step, ite_none_right_eq_some, some.injEq] at stepped
      obtain ⟨-, rfl⟩ := stepped
      refine ⟨fun id row stored status => ?_, fenced.jobs⟩
      rw [Table.get_insert] at stored
      split at stored
      · cases stored
        cases status
      · exact fenced.delivered id row stored status
  | claim limit lease owner now =>
      simp only [step, ite_none_right_eq_some, some.injEq] at stepped
      obtain ⟨named, rfl⟩ := stepped
      apply fenced.outbox
      · apply claimPending_changes.imp
        rintro _ old _ - ⟨eligible, rfl⟩ status
        simp [due, show old.status = .delivered from status] at eligible
      · intro job member
        rcases mem_append.mp member with kept | claimed
        · exact fenced.jobs job kept
        · obtain ⟨event, taken, rfl⟩ := mem_map.mp claimed
          rw [(mem_claimPending taken).1]
          exact named
  | filter index settings =>
      obtain ⟨job, found, -, rfl⟩ := moved_job stepped
      refine fenced.outbox (.refl _) ?_
      cases settings <;> exact staged found
  | emit index failure =>
      obtain ⟨job, found, -, rfl⟩ := moved_job stepped
      exact ⟨fenced.delivered, staged found⟩
  | mark index clock fails =>
      obtain ⟨job, found, -, rfl⟩ := moved_job stepped
      refine fenced.outbox ?_ fewer
      cases fails with
      | true => exact .refl _
      | false => exact record_unleases job clock s.outbox
  | abandon index =>
      obtain ⟨job, -, rfl⟩ := map_eq_some_iff.mp stepped
      exact fenced.outbox (.refl _) fewer
  | reset id now =>
      cases stepped
      refine fenced.outbox ((change_changes s.outbox id _).imp ?_) fenced.jobs
      rintro _ old _ - ⟨-, rfl⟩ status
      rfl

theorem delivered_record {id : Text} (fenced : Fenced s) (found : job ∈ s.jobs) (inTime : RecordsInTime cfg s job)
    (delivered : Delivered s.outbox id) : Delivered (record cfg job clock s.outbox) id := by
  have marked : Delivered (markDelivered job.event.id (truncateTime clock) s.outbox).2 id := by
    apply delivered_of_changes (change_changes s.outbox _ _) _ delivered
    rintro old new - - ⟨-, rfl⟩
    rfl
  unfold record
  cases stage : job.stage with
  | claimed | queued => exact delivered
  | unsubscribed => exact marked
  | emitted failure =>
      cases failure with
      | none => exact marked
      | some failure =>
          -- The event carries the lease of the claim, so it is not delivered.
          apply delivered_of_changes (change_changes s.outbox _ _) _ delivered
          rintro old new stored status ⟨rfl, -⟩
          have leased := ((inTime (by simp [Job.failed, stage])).1 old stored).1
          rw [fenced.delivered _ old stored status] at leased
          exact absurd leased.symm (fenced.jobs job found)

theorem delivered_step {next : State} {id : Text} (fenced : Fenced s) (orderly : Orderly cfg s label)
    (stepped : step cfg s label = some next) (other : ∀ now, label ≠ .reset id now)
    (delivered : Delivered s.outbox id) : Delivered next.outbox id := by
  cases label with
  | enqueue clock tenant newID e =>
      simp only [step, ite_none_right_eq_some, some.injEq] at stepped
      obtain ⟨⟨-, fresh⟩, rfl⟩ := stepped
      obtain ⟨old, stored, status⟩ := delivered
      have distinct : (TenantStore.enqueuedEvent tenant clock newID e).id ≠ id := by
        rintro rfl
        rw [fresh] at stored
        cases stored
      exact ⟨old, (Table.get_insert_ne distinct).trans stored, status⟩
  | claim limit lease owner now =>
      simp only [step, ite_none_right_eq_some, some.injEq] at stepped
      obtain ⟨-, rfl⟩ := stepped
      apply delivered_of_changes claimPending_changes _ delivered
      rintro old new - status ⟨eligible, -⟩
      simp [due, status] at eligible
  | filter | emit =>
      obtain ⟨job, -, -, rfl⟩ := moved_job stepped
      exact delivered
  | mark index clock fails =>
      obtain ⟨job, found, -, rfl⟩ := moved_job stepped
      cases fails with
      | true => exact delivered
      | false => exact delivered_record fenced (mem_of_getElem? found) (orderly job found) delivered
  | abandon index =>
      obtain ⟨job, -, rfl⟩ := map_eq_some_iff.mp stepped
      exact delivered
  | reset changed now =>
      cases stepped
      apply delivered_of_changes (change_changes s.outbox changed _) _ delivered
      rintro old new - - ⟨rfl, -⟩
      exact absurd rfl (other now)

theorem counted_of_reaches (reached : (system cfg).Reaches (Orderly cfg) {} s) : Counted cfg s := by
  apply reached.invariant
  · constructor <;> simp [unrecorded]
  · intro before label after counted orderly stepped
    exact counted_step counted orderly stepped

theorem fenced_of_reaches (reached : (system cfg).Reaches (Orderly cfg) {} s) : Fenced s := by
  apply reached.invariant
  · constructor <;> simp
  · intro before label after fenced _ stepped
    exact fenced_step fenced stepped

/-- As long as every failure is recorded under its own claim, a delivered event
stays so until it is reset, and a dead letter has had its failed emits. -/
theorem outcomes_kept_in_orderly_run {cfg : Config} {s next : State} {label : Step}
    (reached : (system cfg).Reaches (Orderly cfg) {} s) (orderly : Orderly cfg s label)
    (stepped : (system cfg).step s label = some next) :
    (∀ id, (∀ now, label ≠ .reset id now) → Delivered s.outbox id → Delivered next.outbox id) ∧
      ∀ (id : Text) e, next.outbox[id]? = some e → e.status = .failed →
        cfg.outboxMaxAttempts ≤ next.failures.count id := by
  constructor
  · intro id other delivered
    exact delivered_step (fenced_of_reaches reached) orderly stepped other delivered
  · exact (counted_step (counted_of_reaches reached) orderly stepped).dead

def opened : OutboxEvent where
  id := text "e1"
  type := text "recipient.unsubscribed"
  payload := .unsubscribe ⟨[], [], [], [], [], [], 0⟩

/-- The first dispatcher emits, without success, and stalls; its lease runs out,
and the second one delivers the event. -/
def stalledRun : List Step :=
  [.enqueue 1000000 (text "t1") [] opened,
    .claim 100 minute (text "a") 2000000, .filter 0 none, .emit 0 (some (text "timeout")),
    .claim 100 minute (text "b") (2 * minute), .filter 1 none, .emit 1 none, .mark 1 (2 * minute) false]

def statusAfter (labels : List Step) : Option OutboxStatus :=
  ((system {}).run {} labels).bind fun s => s.outbox[text "e1"]?.map fun e => e.status

theorem late_failure_reopens_delivered :
    statusAfter stalledRun = some .delivered ∧
      statusAfter (stalledRun ++ [.mark 0 (3 * minute) false]) = some .pending := by
  decide +kernel

/-- The first dispatcher records its failure in time, and the second one
delivers the event when it is due again. -/
def retriedRun : List Step :=
  [.enqueue 1000000 (text "t1") [] opened,
    .claim 100 minute (text "a") 2000000, .filter 0 none, .emit 0 (some (text "timeout")), .mark 0 3000000 false,
    .claim 100 minute (text "b") (2 * minute), .filter 0 none, .emit 0 none, .mark 0 (2 * minute) false]

theorem delivered_after_retried_run :
    ∃ s next, (system {}).run {} retriedRun = some s ∧ Delivered s.outbox (text "e1") ∧
      (system {}).step s (.claim 100 minute (text "a") (3 * minute)) = some next ∧ Delivered next.outbox (text "e1") ∧
      ∀ (id : Text) e, next.outbox[id]? = some e → e.status = .failed → (10 : Int) ≤ next.failures.count id := by
  have guarded : (system {}).Guarded (Orderly {}) {} retriedRun := by decide +kernel
  have status : statusAfter retriedRun = some .delivered := by decide +kernel
  obtain ⟨s, ran, stored⟩ := bind_eq_some_iff.mp status
  obtain ⟨e, found, delivered⟩ := map_eq_some_iff.mp stored
  obtain ⟨next, stepped⟩ :
      ∃ next, (system {}).step s (.claim 100 minute (text "a") (3 * minute)) = some next := ⟨_, rfl⟩
  obtain ⟨kept, dead⟩ := outcomes_kept_in_orderly_run (System.reaches_of_run guarded ran) (by exact trivial) stepped
  exact ⟨s, next, ran, ⟨e, found, delivered⟩, stepped, kept (text "e1") nofun ⟨e, found, delivered⟩, dead⟩

end Sendplane.Control.Outbox
