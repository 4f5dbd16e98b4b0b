import Sendplane.Control.Tracking
import Sendplane.Postgres.Complete
import Sendplane.Sender.Batching

namespace Sendplane.Postgres

open Data Store List

def eventValues (tenant : Text) (now : Time) (newID : Text) (e : TrackingEvent) : List Value :=
  [.text (if e.id = [] then newID else e.id), .text tenant, .text e.deliveryID, .text e.campaignID, .kind e.kind,
    .text e.url, .int e.linkNo, .text e.userAgent, .text e.ipHash, .bool e.suspectedBot,
    .time (tsInNN (if e.createdAt = 0 then now else e.createdAt))]

def insertEvents (tenant : Text) (now : Time) (newID : Nat → Text) (evs : List TrackingEvent) : Option Statement :=
  insertInto (text ("tracking_event (id, tenant_id, delivery_id, campaign_id,\n\t        kind, url, link_no, " ++
      "user_agent, ip_hash, suspected_bot, created_at)\n\t     "))
    (evs.mapIdx fun index => eventValues tenant now (newID index))

def outboxValues (tenant : Text) (now : Time) (newID : Text) (e : OutboxEvent) : List Value :=
  let createdAt := if e.createdAt = 0 then now else e.createdAt
  let nextAttemptAt := if e.nextAttemptAt = 0 then createdAt else e.nextAttemptAt
  [.text (if e.id = [] then newID else e.id), .text tenant, .text e.type, .json e.payload, .text (text "pending"),
    .int e.attempts, .time (tsInNN nextAttemptAt), .text e.leaseOwner, .time (tsIn e.leaseUntil), .text e.lastError,
    .time (tsInNN createdAt)]

def enqueue (tenant : Text) (now : Time) (newID : Nat → Text) (evs : List OutboxEvent) : Option Statement :=
  insertInto (text ("outbox_event (id, tenant_id, type, payload, status,\n\t        attempts, next_attempt_at, " ++
      "lease_owner, lease_until, last_error, created_at)\n\t     "))
    (evs.mapIdx fun index => outboxValues tenant now (newID index))

variable {tenant : Text} {now : Time} {newID : Nat → Text}

theorem accepted_insertEvents_iff : Accepted (insertEvents tenant now newID evs) ↔ evs.length ≤ 5957 := by
  rw [insertEvents, accepted_insertInto_iff 11, length_mapIdx, maxParams]
  · omega
  · simp only [mem_mapIdx]
    rintro row ⟨index, bound, rfl⟩
    rfl

theorem accepted_enqueue_iff : Accepted (enqueue tenant now newID evs) ↔ evs.length ≤ 5957 := by
  rw [enqueue, accepted_insertInto_iff 11, length_mapIdx, maxParams]
  · omega
  · simp only [mem_mapIdx]
    rintro row ⟨index, bound, rfl⟩
    rfl

open Control Sender

variable {flushSize maxBuffer count : Nat} {size : Int}

/-- The tracking loop is about to write the buffer. -/
def Flushes (s : Tracking.State) : Prop :=
  (∃ last, s.loop = .flushing last) ∨ s.closing = .stopped false

/-- Every batch of tracking events fits into one statement. -/
def TrackingAccepted (flushSize maxBuffer : Nat) : Prop :=
  ∀ s, (Tracking.tracking flushSize).Reachable (Tracking.initial maxBuffer) s → Flushes s →
    ∀ evs ∈ Tracking.byTenant s.buffer.buf, ∀ tenant now newID, Accepted (insertEvents tenant now newID evs)

/-- A batch of results that the loop commits, with at most so many of them. -/
def Commits (size : Int) (most : Nat) (batch : List Completion) : Prop :=
  batch.length ≤ most ∧ ∃ s last, (Batching.batching size).Reachable {} s ∧ s.loop = .committing batch last

def AttemptsAccepted (size : Int) (most : Nat) : Prop :=
  ∀ batch, Commits size most batch → ∀ (t : QueueTables) now newID, Accepted (insertAttempts (attemptRows t.tenant now newID
    (applied (batch.map Completion.res) t.deliveries) 0 (batch.map Completion.res)))

def EventsAccepted (size : Int) (most : Nat) : Prop :=
  ∀ batch, Commits size most batch → ∀ settings tenant now newID, Accepted (enqueue tenant now newID
    ((batch.filter (announced settings)).map (deliveryEvent now)))

theorem exists_flush (fits : count ≤ maxBuffer) :
    ∃ s, (Tracking.tracking flushSize).Reachable (Tracking.initial maxBuffer) s ∧ Flushes s ∧
      s.buffer.buf = replicate count Tracking.opened := by
  have recorded : ∃ s, (Tracking.tracking flushSize).Reachable (Tracking.initial maxBuffer) s ∧
      s.loop = .flushing false ∧ s.buffer.closed = false ∧ s.buffer.maxBuffer = maxBuffer ∧
      s.buffer.buf = replicate count Tracking.opened := by
    induction count with
    | zero =>
        have ran : (Tracking.tracking flushSize).run (Tracking.initial maxBuffer) [.start, .launch, .select .tick] = some _ :=
          rfl
        exact ⟨_, System.reachable_of_run ran, rfl, rfl, rfl, rfl⟩
    | succ count ih =>
        obtain ⟨s, reached, flushing, unclosed, limit, filled⟩ := ih (by omega)
        refine ⟨_, reached.tail ⟨.record Tracking.opened [] 0, trivial, rfl⟩, flushing, ?_⟩
        have room : count - (count + 1 - maxBuffer) = count := by omega
        simp [Tracking.record, Api.TrackingBuffer.record, unclosed, limit, filled, room, replicate_succ']
        decide
  obtain ⟨s, reached, flushing, -, -, filled⟩ := recorded
  exact ⟨s, reached, .inl ⟨false, flushing⟩, filled⟩

theorem trackingAccepted_iff (positive : 0 < maxBuffer) : TrackingAccepted flushSize maxBuffer ↔ maxBuffer ≤ 5957 := by
  constructor
  · intro accepted
    obtain ⟨s, reached, flushes, full⟩ := exists_flush (le_refl maxBuffer)
    have whole : replicate maxBuffer Tracking.opened ∈ Tracking.byTenant s.buffer.buf := by
      simp [Tracking.byTenant, full, positive.ne']
    simpa [accepted_insertEvents_iff] using accepted s reached flushes _ whole [] 0 (fun _ => [])
  · intro small s reached _ evs group tenant now newID
    obtain ⟨tenantID, -, rfl⟩ := mem_map.mp group
    have bounded := (Tracking.sound_of_reachable positive reached).bounded
    rw [accepted_insertEvents_iff]
    exact (length_filter_le _ _).trans (bounded.trans small)

def sentResult : DeliveryResult where
  deliveryID := text "d1"
  leaseOwner := text "w1"
  newStatus := .sent
  attempt := some {}

def leasedQueue : QueueTables where
  deliveries := (∅ : Table Text Delivery).insert (text "d1") { id := text "d1", leaseOwner := text "w1" }

/-- No size that is configured bounds a batch: results come in while the one
before is committed. -/
theorem exists_commit (count : Nat) :
    ∃ batch, Commits size (count + 1) batch ∧ batch.map Completion.res = replicate (count + 1) sentResult := by
  have named : sentResult.deliveryID ≠ [] := by decide
  have added : ∃ s, (Batching.batching size).Reachable {} s ∧ s.loop = .flushing false ∧
      s.buf.map Completion.res = replicate (count + 1) sentResult := by
    induction count with
    | zero =>
        have ran : (Batching.batching size).run {} [.wakeUp .tick, .add sentResult none] = some _ := rfl
        exact ⟨_, System.reachable_of_run ran, by simp [Batching.add, named]⟩
    | succ count ih =>
        obtain ⟨s, reached, flushing, filled⟩ := ih
        refine ⟨_, reached.tail ⟨.add sentResult none, trivial, rfl⟩, ?_⟩
        simp [Batching.add, named, flushing, filled, replicate_succ']
  obtain ⟨s, reached, flushing, filled⟩ := added
  have some : s.buf ≠ [] := by
    rintro empty
    simp [empty] at filled
  have taken : (Batching.batching size).step s .take = Option.some { s with buf := [], loop := .committing s.buf false } := by
    simp [Batching.batching, flushing, some]
  have length : s.buf.length = count + 1 := by simpa using congrArg length filled
  exact ⟨s.buf, ⟨length.le, _, false, reached.tail ⟨.take, trivial, taken⟩, rfl⟩, filled⟩

theorem length_attemptRows_le (index : Nat) :
    (attemptRows tenant now newID done index results).length ≤ results.length := by
  induction results generalizing index with
  | nil => simp [attemptRows]
  | cons res rest ih =>
      have later := ih (index + 1)
      unfold attemptRows
      split
      · simp only [length_cons]
        omega
      · split <;> simp only [length_cons] <;> omega

theorem length_attemptRows_replicate (updated : done sentResult.deliveryID = true) (index : Nat) :
    (attemptRows tenant now newID done index (replicate count sentResult)).length = count := by
  have attempted : sentResult.attempt = some {} := rfl
  induction count generalizing index with
  | zero => rfl
  | succ count ih => simp [replicate_succ, attemptRows, attempted, updated, ih]

variable {most : Nat}

theorem attemptsAccepted_iff : AttemptsAccepted size most ↔ most ≤ 5041 := by
  constructor
  · intro accepted
    cases most with
    | zero => omega
    | succ count =>
        obtain ⟨batch, commits, results⟩ := exists_commit count
        have updated : applied (replicate (count + 1) sentResult) leasedQueue.deliveries sentResult.deliveryID = true := by
          simp [applied, leasedQueue, joined, sentResult]
          decide
        have whole := accepted batch commits leasedQueue 0 (fun _ => [])
        rwa [results, accepted_insertAttempts_iff, length_attemptRows_replicate updated] at whole
  · rintro small batch ⟨fits, -⟩ t now newID
    rw [accepted_insertAttempts_iff]
    refine (length_attemptRows_le 0).trans ?_
    rw [length_map]
    omega

theorem eventsAccepted_iff : EventsAccepted size most ↔ most ≤ 5957 := by
  constructor
  · intro accepted
    cases most with
    | zero => omega
    | succ count =>
        obtain ⟨batch, commits, results⟩ := exists_commit count
        have length : batch.length = count + 1 := by simpa using congrArg length results
        have subscribed : batch.filter (announced { eventTypes := [text "delivery.sent"] }) = batch := by
          refine filter_eq_self.mpr fun c member => ?_
          have listed : c.res ∈ batch.map Completion.res := mem_map_of_mem member
          rw [results] at listed
          rw [announced, eq_of_mem_replicate listed]
          decide
        have whole := accepted batch commits { eventTypes := [text "delivery.sent"] } [] 0 (fun _ => [])
        rwa [subscribed, accepted_enqueue_iff, length_map, length] at whole
  · rintro small batch ⟨fits, -⟩ settings tenant now newID
    rw [accepted_enqueue_iff, length_map]
    exact (length_filter_le _ _).trans (fits.trans small)

/-- The statements stay within the limit exactly if the tracking buffer is small
enough, and if the batches of results are, which no configuration sees to. -/
theorem batches_accepted_iff (flushSize maxBuffer : Nat) (positive : 0 < maxBuffer) (size : Int) (most : Nat) :
    (TrackingAccepted flushSize maxBuffer ↔ maxBuffer ≤ 5957) ∧
      (AttemptsAccepted size most ↔ most ≤ 5041) ∧ (EventsAccepted size most ↔ most ≤ 5957) :=
  ⟨trackingAccepted_iff positive, attemptsAccepted_iff, eventsAccepted_iff⟩

theorem small_buffer_accepted : TrackingAccepted 5000 5000 :=
  (batches_accepted_iff 5000 5000 (by decide) 100 100).1.mpr (by decide)

/-- The default configuration: a hundred thousand events may be buffered, and a
batch of results may outgrow any size. -/
theorem default_batches_refused :
    ¬ TrackingAccepted 5000 100000 ∧ ∀ size, ¬ ∀ most, AttemptsAccepted size most ∧ EventsAccepted size most := by
  constructor
  · rw [trackingAccepted_iff] <;> decide
  · intro size accepted
    exact absurd (attemptsAccepted_iff.mp (accepted 5042).1) (by decide)

end Sendplane.Postgres
