import Sendplane.Memstore.Settings

namespace Sendplane.Sender

open Data Store Memstore DeliveryRepo Pool

structure DeliveryRef where
  campaignID : Text := []
  senderID : Text := []
  email : Text := []
  emailNorm : Text := []
  lane : Lane := .bulk
  attemptNo : Int := 0
deriving DecidableEq

structure Completion where
  res : DeliveryResult
  d : DeliveryRef
deriving DecidableEq

def completion (res : DeliveryResult) (d : Delivery) : Completion where
  res := res
  d := {
    campaignID := d.campaignID, senderID := d.senderID, email := d.email, emailNorm := d.emailNorm
    lane := d.lane
    attemptNo := if res.incrementAttempt then d.attemptCount + 1 else d.attemptCount }

inductive Call where
  | other
  | complete (newID : Nat → Text) (batch : List Completion)
  | settings
  /-- The store that the Complete of the same flush has found is recorded here;
  nothing else looks at it. -/
  | enqueue (found : TenantStore) (newID : Nat → Text) (batch : List Completion)
      (settings : TenantSettings)

abbrev Proc := Prog Call TenantStore Err

def eventTypeFor : DeliveryStatus → Option Text
  | .sent => some (text "delivery.sent")
  | .failed => some (text "delivery.failed")
  | _ => none

def announced (settings : TenantSettings) (c : Completion) : Bool :=
  (eventTypeFor c.res.newStatus).any settings.subscribedTo

def deliveryEvent (now : Time) (c : Completion) : OutboxEvent where
  type := (eventTypeFor c.res.newStatus).getD []
  payload := .delivery {
    deliveryID := c.res.deliveryID, campaignID := c.d.campaignID, senderID := c.d.senderID
    status := c.res.newStatus, email := c.d.email, emailNorm := c.d.emailNorm, lane := c.d.lane
    occurredAt := now, messageID := c.res.messageID, attemptNo := c.d.attemptNo
    errorClass := c.res.errorClass, smtpCode := c.res.smtpCode, error := c.res.error }
  createdAt := now
  nextAttemptAt := now

/-- A flush commits a batch and announces it; which results were stale it is not told. -/
structure Batcher where
  tenantID : Text
  cached : Option TenantSettings := none
  key : SigningKey
  now : Time
  attemptID : Nat → Text
  eventID : Nat → Text

variable (b : Batcher)

def tenantSettings : Proc (Except Err TenantSettings) :=
  match b.cached with
  | some settings => return .ok settings
  | none => loadTenantSettings .settings b.tenantID b.key (truncateTime b.now)

/-- A failure to read the settings or to enqueue is logged only. -/
def enqueueEvents (found : TenantStore) (batch : List Completion) : Proc Unit := do
  if (batch.filter fun c => (eventTypeFor c.res.newStatus).isSome) = [] then return ()
  else match ← tenantSettings b with
    | .error _ => return ()
    | .ok settings =>
        let evs := (batch.filter (announced settings)).map (deliveryEvent (truncateTime b.now))
        if evs.isEmpty then return ()
        else
          let _ ← Prog.invoke (.enqueue found b.attemptID batch settings)
            (TenantStore.outboxEnqueue b.eventID evs)
          return ()

def complete (newID : Nat → Text) (batch : List Completion) (s : TenantStore) :
    Except Err TenantStore × TenantStore :=
  (.ok s, (s.deliveryComplete newID (batch.map Completion.res)).2)

def flush (batch : List Completion) : Proc Unit := do
  if batch = [] then return ()
  else match ← Prog.invoke (.complete b.attemptID batch) (complete b.attemptID batch) with
    | .error _ => return ()
    | .ok found => enqueueEvents b found batch

variable {b} {s : TenantStore} {newID : Nat → Text}

/-- The Complete on `s` has applied the result at the given place of the batch,
and this has moved the delivery to the status, or confirmed that its holder
has sent it. -/
def Happened (s : TenantStore) (newID : Nat → Text) (results : List DeliveryResult) (index : Nat)
    (res : DeliveryResult) : Prop :=
  (s.complete s.clock newID (results.take index)).holdsLease res = true ∧
    ∃ d next, s.deliveries[res.deliveryID]? = some d ∧
      (s.complete s.clock newID results).deliveries[res.deliveryID]? = some next ∧
      next.status = res.newStatus ∧
      (d.status ≠ res.newStatus ∨ res.newStatus = .sent ∧ d.leaseOwner = res.leaseOwner)

/-- The result is not stale: its owner holds the lease, no earlier result of the
batch takes it, and a failure is news. -/
def Current (s : TenantStore) (results : List DeliveryResult) (index : Nat) (res : DeliveryResult) :
    Prop :=
  s.holdsLease res = true ∧ s.decidingResult (results.take index) res.deliveryID = none ∧
    (res.newStatus ≠ .sent → ∀ d ∈ s.deliveries[res.deliveryID]?, d.status ≠ res.newStatus)

variable {results : List DeliveryResult} {index : Nat}

theorem turn_get {id : Text} (undecided : s.decidingResult (results.take index) id = none) :
    (s.complete s.clock newID (results.take index)).deliveries[id]? = s.deliveries[id]? := by
  rw [complete_get, undecided]

variable {res : DeliveryResult}

theorem undecided_of_turn (held : (s.complete s.clock newID (results.take index)).holdsLease res = true) :
    s.decidingResult (results.take index) res.deliveryID = none := by
  cases decides : s.decidingResult (results.take index) res.deliveryID with
  | none => rfl
  | some earlier =>
      obtain ⟨row, stored, owned, owner⟩ := holdsLease_iff.mp held
      rw [complete_get, decides] at stored
      obtain ⟨d, _, rfl⟩ := Option.map_eq_some_iff.mp stored
      exact absurd owner.symm owned

theorem decidingResult_of_current (placed : results[index]? = some res) (held : s.holdsLease res = true)
    (undecided : s.decidingResult (results.take index) res.deliveryID = none) :
    s.decidingResult results res.deliveryID = some res := by
  obtain ⟨inRange, same⟩ := List.getElem?_eq_some_iff.mp placed
  have cut : results = results.take index ++ res :: results.drop (index + 1) := by
    rw [← same, ← List.drop_eq_getElem_cons inRange, List.take_append_drop]
  unfold decidingResult at undecided ⊢
  rw [cut, List.find?_append, undecided]
  simp [held]

theorem happened_iff (placed : results[index]? = some res) :
    Happened s newID results index res ↔ Current s results index res := by
  constructor
  · intro happened
    obtain ⟨held, d, next, stored, _, _, news⟩ := happened
    have undecided := undecided_of_turn held
    refine ⟨?_, undecided, fun unsent row found => ?_⟩
    · rw [← holdsLease_of_get (turn_get undecided)]
      exact held
    · rw [stored] at found
      cases found
      rcases news with moved | ⟨sent, _⟩
      · exact moved
      · exact absurd sent unsent
  · intro current
    obtain ⟨held, undecided, news⟩ := current
    obtain ⟨d, stored, owned, owner⟩ := holdsLease_iff.mp held
    refine ⟨?_, d, applyResult (truncateTime s.clock) res d, stored, ?_, rfl, ?_⟩
    · rw [holdsLease_of_get (turn_get undecided)]
      exact held
    · rw [complete_get, decidingResult_of_current placed held undecided, stored]
      rfl
    · by_cases sent : res.newStatus = .sent
      · exact .inr ⟨sent, owner⟩
      · exact .inl (news sent d stored)

/-- Every result of the batch that can become an event is current. -/
def BatchCurrent (s : TenantStore) (batch : List Completion) : Prop :=
  ∀ index c, batch[index]? = some c → (eventTypeFor c.res.newStatus).isSome = true →
    Current s (batch.map Completion.res) index c.res

/-- Every event of the flush is about something its Complete has done. -/
def EventsHappened (found : TenantStore) (newID : Nat → Text) (batch : List Completion)
    (settings : TenantSettings) : Prop :=
  ∀ index c, batch[index]? = some c → announced settings c = true →
    Happened found newID (batch.map Completion.res) index c.res

variable {batch : List Completion} {settings : TenantSettings}

theorem eventsHappened_of_current (current : BatchCurrent s batch) : EventsHappened s newID batch settings := by
  intro index c placed isEvent
  have typed : (eventTypeFor c.res.newStatus).isSome = true := by
    cases type : eventTypeFor c.res.newStatus with
    | none => simp [announced, type] at isEvent
    | some _ => rfl
  have listed : (batch.map Completion.res)[index]? = some c.res := by
    rw [List.getElem?_map, placed]
    rfl
  exact (happened_iff listed).mpr (current index c placed typed)

/-- No stale result is committed together with an event. -/
def NothingStale : Call → Option Err → TenantStore → Prop
  | .complete _ batch, none, s => BatchCurrent s batch
  | _, _, _ => True

def announcing : Discipline Call TenantStore Err where
  allowed := NothingStale
  guarantee call _ _ := match call with
    | .enqueue found newID batch settings => EventsHappened found newID batch settings
    | _ => True

inductive Operation where
  | flush (b : Batcher) (batch : List Completion)
  | claim (req : ClaimRequest)
  | markSent (id owner messageID : Text) (time : Time)
  | releaseExpiredLeases (now : Time) (limit : Int)
  | requeue (filter : RetryFilter) (limit : Int)
  | markBounced (id : Text) (time : Time)
  | passTime (clock : Time)

def program : Operation → Proc Unit
  | .flush b batch => flush b batch
  | .claim req => (Prog.invoke .other (TenantStore.deliveryClaim req)).discard
  | .markSent id owner messageID time =>
      (Prog.invoke .other (TenantStore.deliveryMarkSent id owner messageID time)).discard
  | .releaseExpiredLeases now limit =>
      (Prog.invoke .other (TenantStore.deliveryReleaseExpiredLeases now limit)).discard
  | .requeue filter limit => (Prog.invoke .other (TenantStore.deliveryRequeue filter limit)).discard
  | .markBounced id time => (Prog.invoke .other (TenantStore.deliveryMarkBounced id time)).discard
  | .passTime clock => (Prog.invoke .other (TenantStore.passTime clock)).discard

abbrev Workers := Pool Call TenantStore Err

theorem invoke_announces {β : Type} {op : TenantStore → Except Err β × TenantStore} :
    ((Prog.invoke .other op).discard : Proc Unit).Respects announcing (fun _ _ => True) s :=
  Prog.respects_invoke (fun _ _ _ => ⟨trivial, fun _ _ => trivial⟩)
    fun _ _ _ _ _ _ => trivial

theorem tenantSettings_announces : (tenantSettings b).Respects announcing (fun _ _ => True) s := by
  have makes : (tenantSettings b).Makes (fun call _ => call = .settings) fun _ => True := by
    unfold tenantSettings
    cases b.cached with
    | some settings => trivial
    | none => exact loadTenantSettings_makes rfl fun _ => rfl
  refine makes.respects ?_
  intro call effect now same _
  subst same
  trivial

variable {found : TenantStore}

theorem enqueueEvents_announces (happened : ∀ settings, EventsHappened found b.attemptID batch settings) :
    (enqueueEvents b found batch).Respects announcing (fun _ _ => True) s := by
  unfold enqueueEvents
  split
  · exact fun _ _ => trivial
  apply tenantSettings_announces.bind
  intro reply now _
  cases reply with
  | error e => exact fun _ _ => trivial
  | ok settings =>
      dsimp only
      split
      · exact fun _ _ => trivial
      · exact Prog.respects_invoke (fun _ _ _ => ⟨happened settings, fun _ _ => trivial⟩)
          fun _ _ _ _ _ _ => trivial

theorem flush_announces : (flush b batch).Respects announcing (fun _ _ => True) s := by
  unfold flush
  split
  · exact fun _ _ => trivial
  refine Prog.respects_invoke (fun found _ current => ⟨trivial, ?_⟩)
    fun _ _ _ _ _ _ => trivial
  -- The store that the events are judged by is the one the batch was current in.
  exact enqueueEvents_announces fun _ => eventsHappened_of_current current

theorem program_announces (operation : Operation) (s : TenantStore) (_ : True) :
    (program operation).Respects announcing (fun _ _ => True) s := by
  cases operation with
  | flush b batch => exact flush_announces
  | claim | markSent | releaseExpiredLeases | requeue | markBounced | passTime => exact invoke_announces

/-- In every run in which no flush commits a stale result, what is announced has
happened. -/
theorem events_happened_of_current_batches {start pool next : Workers} {thread : Nat}
    {found : TenantStore} {newID : Nat → Text} {batch : List Completion} {settings : TenantSettings}
    (idle : start.threads = []) (reached : (Pool.system program).Reaches (Pool.Permits NothingStale) start pool)
    (calls : pool.nextCall (.advance thread none : Move Operation Err) =
      some (.enqueue found newID batch settings, none))
    (stepped : (Pool.system program).step pool (.advance thread none) = some next) :
    EventsHappened found newID batch settings := by
  have stable : announcing.Stable fun _ => True := fun _ _ _ _ _ => trivial
  have ⟨_, disciplined⟩ : True ∧ pool.Disciplined announcing :=
    disciplined_of_reaches program_announces stable idle trivial reached
  have permitted : pool.Permits NothingStale (.advance thread none : Move Operation Err) := by
    intro call made
    rw [calls] at made
    cases made
    trivial
  obtain ⟨call, made, guaranteed⟩ := guarantee_of_advance disciplined permitted stepped
  rw [calls] at made
  cases made
  exact guaranteed

instance (s : TenantStore) (results : List DeliveryResult) (index : Nat) (res : DeliveryResult) :
    Decidable (Current s results index res) :=
  inferInstanceAs (Decidable (_ ∧ _ ∧ (_ → ∀ d ∈ s.deliveries[res.deliveryID]?, _)))

instance (s : TenantStore) (batch : List Completion) : Decidable (BatchCurrent s batch) :=
  decidable_of_iff (∀ index ∈ List.range batch.length, ∀ c ∈ batch[index]?,
      (eventTypeFor c.res.newStatus).isSome = true → Current s (batch.map Completion.res) index c.res) <| by
    constructor
    · intro all index c placed
      have inRange := (List.getElem?_eq_some_iff.mp placed).1
      exact all index (List.mem_range.mpr inRange) c placed
    · intro all index _ c placed
      exact all index c placed

instance (call : Call) (failure : Option Err) (s : TenantStore) :
    Decidable (NothingStale call failure s) :=
  decidable_of_bool (match call, failure with
    | .complete _ batch, none => BatchCurrent s batch
    | _, _ => true) <| by
      unfold NothingStale
      split <;> simp

def queuedStore : TenantStore where
  settings := some {}
  deliveries := (∅ : Table Text Delivery).insert (text "d1") { id := text "d1", status := .queued }

def claimFor (worker : Text) (now : Time) : Operation :=
  .claim { lane := .bulk, campaignIDs := none, limit := 1, leaseFor := 5000000, workerID := worker, now }

def failedBatch : List Completion :=
  [completion { deliveryID := text "d1", leaseOwner := text "w1", newStatus := .failed } { id := text "d1" }]

def flushFailed : Operation :=
  .flush { tenantID := [], key := {}, now := 3000000, attemptID := fun _ => text "a1",
           eventID := fun _ => text "e1" } failedBatch

def announces (thread : Nat) (pool : Workers) : Option (TenantStore × List Completion × TenantSettings) :=
  match pool.nextCall (.advance thread none : Move Operation Err) with
  | some (.enqueue found _ batch settings, none) => some (found, batch, settings)
  | _ => none

theorem nextCall_of_announces {pool : Workers} (announced : announces thread pool = some (found, batch, settings)) :
    ∃ newID, pool.nextCall (.advance thread none : Move Operation Err) =
      some (.enqueue found newID batch settings, none) := by
  unfold announces at announced
  split at announced
  next newID _ _ calls =>
    cases announced
    exact ⟨newID, calls⟩
  · cases announced

theorem events_happened_in_time :
    ∃ pool found newID settings, (Pool.system program).run ⟨queuedStore, []⟩
        [.spawn (claimFor (text "w1") 1000000), .advance 0 none, .spawn flushFailed, .advance 1 none,
          .advance 1 none] = some pool ∧ pool.nextCall (.advance 1 none : Move Operation Err) =
        some (.enqueue found newID failedBatch settings, none) ∧ EventsHappened found newID failedBatch settings := by
  let labels : List (Move Operation Err) := [.spawn (claimFor (text "w1") 1000000), .advance 0 none,
    .spawn flushFailed, .advance 1 none, .advance 1 none]
  have guarded : (system program).Guarded (Permits NothingStale) ⟨queuedStore, []⟩
      (labels ++ [.advance 1 none]) := by decide
  have flushed : ((system program).run ⟨queuedStore, []⟩ labels).map (fun pool =>
    (announces 1 pool).map fun events => events.2.1) = some (some failedBatch) := by decide
  obtain ⟨next, completed⟩ := Option.isSome_iff_exists.mp
    (by decide : ((system program).run ⟨queuedStore, []⟩
      (labels ++ [.advance 1 none])).isSome = true)
  obtain ⟨pool, ran, reached, _, stepped⟩ := System.last_step_of_run guarded completed
  rw [ran] at flushed
  obtain ⟨⟨found, batch, settings⟩, announced, rfl⟩ := Option.map_eq_some_iff.mp (Option.some.inj flushed)
  obtain ⟨newID, calls⟩ := nextCall_of_announces announced
  exact ⟨pool, found, newID, settings, ran, calls, events_happened_of_current_batches rfl reached calls stepped⟩

/-- The lease of the first worker runs out and another worker claims the
delivery.  The result of the first worker is dropped, and announced. -/
theorem stale_failure_is_announced :
    ¬ ∀ (start pool next : Workers) (thread : Nat) (found : TenantStore) (newID : Nat → Text)
        (batch : List Completion) (settings : TenantSettings), start.threads = [] →
        (Pool.system program).Reachable start pool → pool.nextCall (.advance thread none : Move Operation Err) =
          some (.enqueue found newID batch settings, none) →
        (Pool.system program).step pool (.advance thread none) = some next →
        EventsHappened found newID batch settings := by
  intro claimed
  let labels : List (Move Operation Err) := [.spawn (claimFor (text "w1") 1000000), .advance 0 none,
    .spawn (.releaseExpiredLeases 9000000 0), .advance 1 none,
    .spawn (claimFor (text "w2") 9000000), .advance 2 none,
    .spawn flushFailed, .advance 3 none, .advance 3 none]
  let isStale := fun events : TenantStore × List Completion × TenantSettings =>
    events.2.1.any fun c => announced events.2.2 c && !events.1.holdsLease c.res
  have flushed : ((system program).run ⟨queuedStore, []⟩ labels).map (fun pool =>
    (announces 3 pool).map isStale) = some (some true) := by decide
  obtain ⟨next, completed⟩ := Option.isSome_iff_exists.mp
    (by decide : ((system program).run ⟨queuedStore, []⟩
      (labels ++ [.advance 3 none])).isSome = true)
  obtain ⟨pool, ran, reached, _, stepped⟩ := System.last_step_of_run (System.guarded_true _) completed
  rw [ran] at flushed
  obtain ⟨⟨found, batch, settings⟩, announced, stale⟩ := Option.map_eq_some_iff.mp (Option.some.inj flushed)
  obtain ⟨newID, calls⟩ := nextCall_of_announces announced
  have happened := claimed _ pool next 3 found newID batch settings rfl reached calls stepped
  obtain ⟨c, member, both⟩ := List.any_eq_true.mp stale
  simp only [Bool.and_eq_true, Bool.not_eq_true'] at both
  obtain ⟨index, inRange, placed⟩ := List.getElem_of_mem member
  have listed : batch[index]? = some c := by rw [List.getElem?_eq_getElem inRange, placed]
  have current := (happened_iff (by rw [List.getElem?_map, listed]; rfl)).mp
    (happened index c listed both.1)
  exact absurd current.1 (by rw [both.2]; decide)

end Sendplane.Sender
