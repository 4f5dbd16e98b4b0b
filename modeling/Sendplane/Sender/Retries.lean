import Sendplane.Memstore.Lease
import Sendplane.Sender.Policy

namespace Sendplane.Sender

open Data Store Memstore DeliveryRepo Table List Option

/-- What an operator's policy amounts to; without a limit there is one attempt. -/
def attemptLimit (retry : RetryPolicy) : Int :=
  if retry.maxAttempts ≤ 0 then 1 else retry.maxAttempts

theorem attemptLimit_pos : 0 < attemptLimit retry := by
  unfold attemptLimit
  split <;> omega

def consumes : ErrorClass → Bool
  | .transient | .rateLimited => true
  | _ => false

variable {p : Policy} {errorClass : ErrorClass}

theorem decide_of_consumes (count : Int) (consumed : consumes errorClass = true) :
    (p.decide errorClass count now).incrementAttempt = true ∧ ((p.decide errorClass count now).status = .failed ∨
        (p.decide errorClass count now).status = .deferred ∧ count + 1 < attemptLimit p.retry) := by
  have either : errorClass = .transient ∨ errorClass = .rateLimited := by
    cases errorClass <;> simp [consumes] at consumed ⊢
  by_cases spent : count + 1 ≥ attemptLimit p.retry
  · have failed : p.decide errorClass count now =
        { status := .failed, incrementAttempt := true, recordAttempt := true } := by
      rcases either with rfl | rfl <;> exact if_pos spent
    rw [failed]
    exact ⟨rfl, .inl rfl⟩
  · have deferred : ∃ next, p.decide errorClass count now =
        { status := .deferred, nextAttemptAt := next, incrementAttempt := true, recordAttempt := true } := by
      rcases either with rfl | rfl <;> exact ⟨_, if_neg spent⟩
    obtain ⟨next, decided⟩ := deferred
    rw [decided]
    exact ⟨rfl, .inr ⟨rfl, not_le.mp spent⟩⟩

theorem decide_of_spared (count : Int) (spared : consumes errorClass = false) :
    (p.decide errorClass count now).incrementAttempt = false := by
  cases errorClass with
  | transient | rateLimited => cases spared
  | none | permanent | policy | auth => rfl

inductive Applied where
  | committed (errorClass : ErrorClass) (status : DeliveryStatus)
  | requeued

/-- The results since the last failure or requeue that used up an attempt; the
newest one comes first. -/
def streak : List Applied → Nat
  | [] => 0
  | .requeued :: _ => 0
  | .committed errorClass status :: earlier =>
      if status = .failed then 0
      else if consumes errorClass then streak earlier + 1
      else streak earlier

/-- The row can be claimed or has an owner. -/
def Open (d : Delivery) : Prop :=
  d.leaseOwner ≠ [] ∨ d.status = .leased ∨ d.status ∈ cancellable

/-- A change that leaves the counters alone. -/
structure Quiet (old new : Delivery) : Prop where
  count : new.attemptCount = old.attemptCount
  generation : new.retryGen = old.retryGen
  opened : Open new → Open old

/-- What may become of a row, with the streak before and after. -/
inductive Move (limit : Int) (old new : Delivery) (before after : Nat) : Prop
  | quiet (same : Quiet old new) (streak : after = before ∨ after = 0)
  | deferred (count : new.attemptCount = old.attemptCount + 1) (generation : new.retryGen = old.retryGen)
      (below : new.attemptCount < limit) (streak : after = before + 1)
  | failed (was : Open old) (count : new.attemptCount = old.attemptCount + 1)
      (generation : new.retryGen = old.retryGen) (closed : ¬ Open new) (streak : after = 0)
  | requeued (count : new.attemptCount = old.attemptCount) (generation : new.retryGen = old.retryGen + 1)
      (streak : after = 0)

/-- The count is within the limit plus one for each retry generation. -/
structure Within (limit : Int) (d : Delivery) (streak : Nat) : Prop where
  started : 0 ≤ d.attemptCount
  generation : 0 ≤ d.retryGen
  count : d.attemptCount ≤ limit + d.retryGen
  opened : Open d → d.attemptCount < limit + d.retryGen
  streak : streak = 0 ∨ streak ≤ d.attemptCount ∧ d.attemptCount < limit

variable {limit : Int}

theorem Within.move {before after : Nat} (within : Within limit old before)
    (moved : Move limit old new before after) : Within limit new after := by
  obtain ⟨started, generation, count, opened, runs⟩ := within
  cases moved with
  | quiet same streak =>
      refine ⟨?_, ?_, ?_, ?_, ?_⟩
      · rw [same.count]
        exact started
      · rw [same.generation]
        exact generation
      · rw [same.count, same.generation]
        exact count
      · intro now
        rw [same.count, same.generation]
        exact opened (same.opened now)
      · rw [same.count]
        rcases streak with rfl | zero
        · exact runs
        · exact .inl zero
  | deferred counted kept below streak =>
      refine ⟨by omega, by omega, by omega, fun _ => by omega, .inr ⟨?_, below⟩⟩
      rcases runs with zero | both
      · omega
      · omega
  | failed was counted kept closed streak =>
      have room := opened was
      exact ⟨by omega, by omega, by omega, fun now => absurd now closed, .inl streak⟩
  | requeued counted bumped streak =>
      exact ⟨by omega, by omega, by omega, fun _ => by omega, .inl streak⟩

variable {d : Delivery}

theorem Within.lt_limit {streak : Nat} (within : Within limit d streak) (positive : 0 < limit) :
    (streak : Int) < limit := by
  rcases within.streak with rfl | ⟨upTo, below⟩
  · exact positive
  · omega

structure Report where
  deliveryID : Text
  policy : Policy
  failure : Failure
  now : Time := 0
  transportID : Text := []
  messageID : Text := []
  sendStart : Time := 0

def Report.result (report : Report) (row : Delivery) : DeliveryResult :=
  let res := decideResult row.leaseOwner report.policy row report.failure report.now report.transportID
  { res with
    messageID := report.messageID
    attempt := res.attempt.map fun a => { a with startedAt := report.sendStart, finishedAt := report.now } }

/-- Workers report what the policy decides from the row they were handed. -/
structure Sending where
  repo : DeliveryRepo := {}
  /-- The row that the latest claim of each delivery returned. -/
  claims : Table Text Delivery := ∅
  history : Text → List Applied := fun _ => []

inductive SendStep where
  | call (label : RepoStep)
  | commit (clock : Time) (newID : Nat → Text) (reports : List Report)

namespace Sending

variable (s : Sending)

def results (reports : List Report) : List DeliveryResult :=
  reports.filterMap fun report => s.claims[report.deliveryID]?.map report.result

/-- The report's claim is the latest one of the delivery and has its lease. -/
def holds (report : Report) : Bool :=
  s.claims[report.deliveryID]?.any fun row => s.repo.holdsLease (report.result row)

def applied (reports : List Report) (id : Text) : Option DeliveryResult :=
  s.repo.decidingResult (s.results reports) id

def claimsAfter : RepoStep → Table Text Delivery
  | .claim req => s.claims.overwriteAll Delivery.id (s.repo.claim req).1
  | _ => s.claims

def historyAfter : RepoStep → Text → List Applied
  | .requeue filter limit, id =>
      if id ∈ s.repo.chosen (requeues filter) limit then .requeued :: s.history id else s.history id
  | _, id => s.history id

end Sending

def sending : System Sending SendStep where
  step
    | s, .call label => (calls.step s.repo label).map fun repo =>
        { repo, claims := s.claimsAfter label, history := s.historyAfter label }
    | s, .commit clock newID reports =>
        if reports.all s.holds then
          some { s with
            repo := s.repo.complete clock newID (s.results reports)
            history := fun id =>
              match s.applied reports id with
              | some res => .committed res.errorClass res.newStatus :: s.history id
              | none => s.history id }
        else none

/-- A new delivery: no attempt was made and no row is replaced. -/
def Unattempted (d : Delivery) : Prop :=
  d.attemptCount = 0 ∧ d.retryGen = 0 ∧ d.leaseOwner = []

instance (d : Delivery) : Decidable (Unattempted d) :=
  inferInstanceAs (Decidable (_ ∧ _ ∧ _))

/-- All results come from reports under the one retry policy, and rows leave a
status in bulk only while they wait. -/
def Regular (retry : RetryPolicy) (s : Sending) : SendStep → Prop
  | .call (.insertBatch clock newID ds) => (∀ d ∈ ds, Unattempted d) ∧
      ∀ d ∈ DeliveryRepo.accepted (truncateTime clock) newID 0 ds s.repo, s.repo.deliveries[d.id]? = none
  | .call (.complete ..) => False
  | .call (.bulkTransition _ _ source _ _) => source ≠ [] ∧ ∀ status ∈ source, status ∈ cancellable
  | .call _ => True
  | .commit _ _ reports => ∀ report ∈ reports, report.policy.retry = retry

theorem Quiet.refl (d : Delivery) : Quiet d d :=
  ⟨rfl, rfl, id⟩

theorem quiet_leaseTo (eligible : claimable req d = true) : Quiet d (leaseTo req d) :=
  ⟨rfl, rfl, fun _ => .inr (.inr (claimable_waiting eligible))⟩

theorem quiet_markSentRow (leased : d.status = .leased) : Quiet d (markSentRow messageID time d) :=
  ⟨rfl, rfl, fun _ => .inr (.inl leased)⟩

theorem quiet_markTerminalRow (final : status = .bounced ∨ status = .complained) :
    Quiet d (markTerminalRow status time d) := by
  refine ⟨rfl, rfl, ?_⟩
  rintro (owner | leased | waiting)
  · exact absurd rfl owner
  · rcases final with rfl | rfl <;> cases leased
  · change status ∈ cancellable at waiting
    rcases final with rfl | rfl <;> simp [cancellable] at waiting

variable {now : Time}

theorem quiet_releaseRow (expired : leaseExpired now d = true) : Quiet d (releaseRow now d) := by
  simp only [leaseExpired, Bool.and_eq_true, decide_eq_true_eq] at expired
  exact ⟨rfl, rfl, fun _ => .inr (.inl expired.1.1)⟩

theorem quiet_transitionRow (waiting : d.status ∈ cancellable) : Quiet d (transitionRow target now d) :=
  ⟨rfl, rfl, fun _ => .inr (.inr waiting)⟩

theorem move_requeueRow : Move limit d (requeueRow time d) (streak earlier) (streak (.requeued :: earlier)) :=
  .requeued rfl rfl rfl

theorem move_applyResult {report : Report} (owned : d.leaseOwner ≠ []) (same : row.attemptCount = d.attemptCount) :
    Move (attemptLimit report.policy.retry) d (applyResult now (report.result row) d) (streak earlier)
      (streak (.committed (report.result row).errorClass (report.result row).newStatus :: earlier)) := by
  have increments : (report.result row).incrementAttempt =
      (report.policy.decide report.failure.errorClass row.attemptCount report.now).incrementAttempt := rfl
  have status : (report.result row).newStatus =
      (report.policy.decide report.failure.errorClass row.attemptCount report.now).status := rfl
  have errorClass : (report.result row).errorClass = report.failure.errorClass := rfl
  have counted : (applyResult now (report.result row) d).attemptCount =
      if (report.result row).incrementAttempt then d.attemptCount + 1 else d.attemptCount := rfl
  cases consumed : consumes report.failure.errorClass with
  | true =>
      obtain ⟨increment, failed | ⟨deferred, below⟩⟩ := decide_of_consumes row.attemptCount consumed
      · rw [increments, increment] at counted
        refine .failed (.inl owned) counted rfl ?_ ?_
        · rintro (owner | leased | waiting)
          · exact absurd rfl owner
          · change (report.result row).newStatus = .leased at leased
            rw [status, failed] at leased
            cases leased
          · change (report.result row).newStatus ∈ cancellable at waiting
            rw [status, failed] at waiting
            simp [cancellable] at waiting
        · rw [streak, if_pos (status.trans failed)]
      · rw [increments, increment] at counted
        refine .deferred counted rfl ?_ ?_
        · rw [counted, ← same]
          exact below
        · rw [streak, status, deferred, errorClass, if_neg (by decide), if_pos consumed]
  | false =>
      rw [increments, decide_of_spared row.attemptCount consumed] at counted
      refine .quiet ⟨counted, rfl, fun _ => .inl owned⟩ ?_
      rw [streak, errorClass, consumed]
      split
      · exact .inr rfl
      · exact .inl rfl

/-- A call that neither grants a lease nor touches the counters. -/
structure Kept (old new : Delivery) : Prop where
  id : new.id = old.id
  quiet : Quiet old new
  owner : new.leaseOwner = [] ∨ new.leaseOwner = old.leaseOwner

def plain : RepoStep → Bool
  | .markSent .. | .markBounced .. | .markComplained .. | .releaseExpiredLeases .. | .bulkTransition .. => true
  | _ => false

theorem plain_kept {after : DeliveryRepo} (isPlain : plain label = true) (regular : Regular retry s (.call label))
    (stepped : calls.step s.repo label = some after) :
    Changes (fun _ d new => Kept d new) s.repo.deliveries after.deliveries := by
  cases label with
  | markSent id owner messageID time =>
      cases stepped
      apply (markSent_changes id owner messageID time).imp
      rintro _ d _ _ ⟨_, leased, _, _, rfl⟩
      exact ⟨rfl, quiet_markSentRow leased, .inr rfl⟩
  | markBounced id time =>
      cases stepped
      apply (markTerminal_changes id).imp
      rintro _ d _ _ ⟨_, _, rfl⟩
      exact ⟨rfl, quiet_markTerminalRow (.inl rfl), .inl rfl⟩
  | markComplained id time =>
      cases stepped
      apply (markTerminal_changes id).imp
      rintro _ d _ _ ⟨_, _, rfl⟩
      exact ⟨rfl, quiet_markTerminalRow (.inr rfl), .inl rfl⟩
  | releaseExpiredLeases now limit =>
      cases stepped
      apply (changeWhere_changes _ limit _).imp
      rintro _ d _ _ ⟨_, expired, rfl⟩
      exact ⟨rfl, quiet_releaseRow expired, .inl rfl⟩
  | bulkTransition clock campaignID source target limit =>
      cases stepped
      obtain ⟨some, waiting⟩ := regular
      apply (changeWhere_changes _ limit _).imp
      rintro _ d _ _ ⟨_, selected, rfl⟩
      exact ⟨rfl, quiet_transitionRow (waiting _ (transitions_source some selected)), .inr rfl⟩
  | insertBatch | claim | complete | requeue => cases isPlain

/-- Every row after a step is a moved one or a new one, and no row is lost. -/
structure Moves (limit : Int) (s next : Sending) : Prop where
  rows : ∀ (id : Text) new, next.repo.deliveries[id]? = some new →
    (∃ old, s.repo.deliveries[id]? = some old ∧ new.id = old.id ∧
        Move limit old new (streak (s.history id)) (streak (next.history id))) ∨
      s.repo.deliveries[id]? = none ∧ new.id = id ∧ Unattempted new ∧ next.history id = s.history id
  missing : ∀ id : Text, next.repo.deliveries[id]? = none →
    s.repo.deliveries[id]? = none ∧ next.history id = s.history id

section

variable {limit : Int} {retry : RetryPolicy} {s next : Sending}

theorem moves_of_changes (changes : Changes allowed s.repo.deliveries next.repo.deliveries)
    (history : next.history = s.history) (quiet : ∀ id d new, allowed id d new → new.id = d.id ∧ Quiet d new) :
    Moves limit s next := by
  constructor
  · intro id new stored
    rw [history]
    obtain ⟨old, before, rfl | may⟩ := changes.origin stored
    · exact .inl ⟨new, before, rfl, .quiet (.refl new) (.inl rfl)⟩
    · obtain ⟨named, same⟩ := quiet id old new may
      exact .inl ⟨old, before, named, .quiet same (.inl rfl)⟩
  · intro id gone
    rw [history]
    exact ⟨changes.missing gone, rfl⟩

variable {d : Delivery} {tenant : Text}

theorem unattempted_stamped {id : Text} (fresh : Unattempted d) :
    Unattempted (stampDelivery tenant now (withID id d)) := by
  unfold withID
  split <;> exact fresh

variable {clock : Time} {newID : Nat → Text}

theorem insert_moves (regular : Regular retry s (.call (.insertBatch clock newID ds))) :
    Moves limit s { s with repo := (s.repo.insertBatch clock newID ds).2 } := by
  obtain ⟨fresh, unstored⟩ := regular
  constructor
  · intro id new stored
    rcases insertBatch_origin stored with before | ⟨row, written, rfl, rfl⟩
    · exact .inl ⟨new, before, rfl, .quiet (.refl new) (.inl rfl)⟩
    · refine .inr ⟨unstored row written, rfl, ?_, rfl⟩
      obtain ⟨given, listed, id, rfl⟩ := mem_accepted written
      exact unattempted_stamped (fresh given listed)
  · intro id gone
    refine ⟨?_, rfl⟩
    by_contra stored
    obtain ⟨d, found⟩ := ne_none_iff_exists'.mp stored
    rw [insertBatch_get unstored found] at gone
    cases gone

theorem requeue_moves {filter : RetryFilter} {count : Int} :
    Moves limit s { s with
      repo := (s.repo.requeue filter count).2, history := s.historyAfter (.requeue filter count) } := by
  constructor
  · intro id new stored
    rw [requeue, changeWhere_get] at stored
    simp only [Sending.historyAfter]
    by_cases chosen : id ∈ s.repo.chosen (requeues filter) count
    · rw [if_pos chosen, map_eq_some_iff] at stored
      obtain ⟨old, before, rfl⟩ := stored
      rw [if_pos chosen]
      exact .inl ⟨old, before, rfl, move_requeueRow⟩
    · rw [if_neg chosen] at stored
      rw [if_neg chosen]
      exact .inl ⟨new, stored, rfl, .quiet (.refl new) (.inl rfl)⟩
  · intro id gone
    have missing := (changeWhere_changes (requeues filter) count _).missing gone
    refine ⟨missing, if_neg fun chosen => ?_⟩
    obtain ⟨d, stored, _⟩ := mem_keysWhere.mp (mem_of_mem_takeLimit chosen)
    rw [missing] at stored
    cases stored

theorem call_moves (regular : Regular retry s (.call label)) (stepped : sending.step s (.call label) = some next) :
    Moves limit s next := by
  cases isPlain : plain label with
  | true =>
      obtain ⟨after, called, rfl⟩ := map_eq_some_iff.mp stepped
      refine moves_of_changes (plain_kept isPlain regular called) ?_ fun _ _ _ kept => ⟨kept.id, kept.quiet⟩
      cases label <;> first | rfl | cases isPlain
  | false =>
      cases label with
      | insertBatch clock newID ds =>
          cases stepped
          exact insert_moves regular
      | claim req =>
          cases stepped
          refine moves_of_changes (claim_changes req) rfl ?_
          rintro _ d _ ⟨_, eligible, rfl⟩
          exact ⟨rfl, quiet_leaseTo eligible⟩
      | complete clock newID results => cases regular
      | requeue filter count =>
          cases stepped
          exact requeue_moves
      | markSent | markBounced | markComplained | releaseExpiredLeases | bulkTransition => cases isPlain

/-- While a lease is held, its claim has returned the current count. -/
def Claimed (s : Sending) : Prop :=
  ∀ (id : Text) row, s.claims[id]? = some row → row.id = id ∧
    ∀ d, s.repo.deliveries[id]? = some d → d.leaseOwner ≠ [] → row.attemptCount = d.attemptCount

def Keyed (s : Sending) : Prop :=
  ∀ (id : Text) d, s.repo.deliveries[id]? = some d → d.id = id

theorem claimed_of_changes (claimed : Claimed s)
    (changes : Changes allowed s.repo.deliveries next.repo.deliveries) (claims : next.claims = s.claims)
    (kept : ∀ id d new, allowed id d new → new.leaseOwner ≠ [] →
      d.leaseOwner ≠ [] ∧ new.attemptCount = d.attemptCount) : Claimed next := by
  intro id row held
  rw [claims] at held
  obtain ⟨named, counts⟩ := claimed id row held
  refine ⟨named, ?_⟩
  intro new stored owner
  obtain ⟨d, before, same | may⟩ := changes.origin stored
  · exact same ▸ counts d before (same ▸ owner)
  · obtain ⟨owned, count⟩ := kept id d new may owner
    rw [count]
    exact counts d before owned

theorem insert_claimed (claimed : Claimed s) (regular : Regular retry s (.call (.insertBatch clock newID ds))) :
    Claimed { s with repo := (s.repo.insertBatch clock newID ds).2 } := by
  intro id row held
  obtain ⟨named, counts⟩ := claimed id row held
  refine ⟨named, ?_⟩
  intro new stored owner
  have moves : Moves 0 s { s with repo := (s.repo.insertBatch clock newID ds).2 } := insert_moves regular
  rcases moves.rows id new stored with ⟨old, before, _, _⟩ | ⟨_, _, fresh, _⟩
  · have same := insertBatch_get regular.2 before
    rw [stored] at same
    cases same
    exact counts new before owner
  · exact absurd fresh.2.2 owner

theorem mem_returned (keyed : Keyed s) (returned : row ∈ (s.repo.claim req).1) :
    ∃ d, (row.id, d) ∈ s.repo.claimed req ∧ row = leaseTo req d := by
  obtain ⟨⟨id, d⟩, taken, rfl⟩ := mem_map.mp returned
  have same : d.id = id := keyed id d (mem_claimed taken).1
  refine ⟨d, ?_, rfl⟩
  change (d.id, d) ∈ _
  rwa [same]

theorem claim_claimed (keyed : Keyed s) (claimed : Claimed s) :
    Claimed { s with repo := (s.repo.claim req).2, claims := s.claimsAfter (.claim req) } := by
  intro id row held
  change (s.claims.overwriteAll Delivery.id (s.repo.claim req).1)[id]? = some row at held
  rw [get_overwriteAll] at held
  cases found : (s.repo.claim req).1.reverse.find? fun row => row.id = id with
  | some last =>
      rw [found] at held
      cases held
      have named : row.id = id := by simpa using find?_some found
      refine ⟨named, ?_⟩
      have returned := mem_reverse.mp (mem_of_find?_eq_some found)
      obtain ⟨d, taken, rfl⟩ := mem_returned keyed returned
      rw [named] at taken
      intro new stored _
      rw [claim_get, if_pos (mem_map_of_mem (f := Prod.fst) taken), (mem_claimed taken).1] at stored
      cases stored
      rfl
  | none =>
      rw [found] at held
      obtain ⟨named, counts⟩ := claimed id row held
      refine ⟨named, ?_⟩
      intro new stored owner
      obtain ⟨d, before, same | ⟨taken, _, rfl⟩⟩ := (claim_changes req).origin stored
      · exact same ▸ counts d before (same ▸ owner)
      · -- The claim returned the row, so it is found above.
        have returned : leaseTo req d ∈ (s.repo.claim req).1.reverse :=
          mem_reverse.mpr (mem_map.mpr ⟨(id, d), taken, rfl⟩)
        have differs := find?_eq_none.mp found _ returned
        exact absurd (decide_eq_true (keyed id d before)) differs

theorem call_claimed (keyed : Keyed s) (claimed : Claimed s) (regular : Regular retry s (.call label))
    (stepped : sending.step s (.call label) = some next) : Claimed next := by
  cases isPlain : plain label with
  | true =>
      obtain ⟨after, called, rfl⟩ := map_eq_some_iff.mp stepped
      refine claimed_of_changes claimed (plain_kept isPlain regular called) ?_ ?_
      · cases label <;> first | rfl | cases isPlain
      · intro _ d new kept owner
        rcases kept.owner with released | same
        · exact absurd released owner
        · exact ⟨same ▸ owner, kept.quiet.count⟩
  | false =>
      cases label with
      | insertBatch clock newID ds =>
          cases stepped
          exact insert_claimed claimed regular
      | claim req =>
          cases stepped
          exact claim_claimed keyed claimed
      | complete clock newID results => cases regular
      | requeue filter count =>
          cases stepped
          refine claimed_of_changes claimed (changeWhere_changes (requeues filter) count _) rfl ?_
          rintro _ d _ ⟨_, _, rfl⟩ owner
          exact absurd rfl owner
      | markSent | markBounced | markComplained | releaseExpiredLeases | bulkTransition => cases isPlain

variable {reports : List Report} {res : DeliveryResult}

theorem report_of_applied {id : Text} (claimed : Claimed s) (applied : s.applied reports id = some res) :
    ∃ report ∈ reports, ∃ row d, res = report.result row ∧ s.repo.deliveries[id]? = some d ∧ d.leaseOwner ≠ [] ∧
      row.attemptCount = d.attemptCount := by
  obtain ⟨member, target, held⟩ := mem_of_decidingResult applied
  obtain ⟨report, listed, found⟩ := mem_filterMap.mp member
  obtain ⟨row, handed, rfl⟩ := map_eq_some_iff.mp found
  obtain ⟨d, stored, owned, owner⟩ := holdsLease_iff.mp held
  obtain ⟨named, counts⟩ := claimed _ row handed
  have same : report.deliveryID = id := named.symm.trans target
  rw [target] at stored
  rw [same] at counts
  have leased : d.leaseOwner ≠ [] := owner ▸ owned
  exact ⟨report, listed, row, d, rfl, stored, leased, counts d stored leased⟩

theorem commit_moves (claimed : Claimed s) (regular : Regular retry s (.commit clock newID reports))
    (stepped : sending.step s (.commit clock newID reports) = some next) : Moves (attemptLimit retry) s next := by
  simp only [sending, ite_none_right_eq_some, some.injEq] at stepped
  obtain ⟨_, rfl⟩ := stepped
  have row : ∀ id : Text, (s.repo.complete clock newID (s.results reports)).deliveries[id]? =
      match s.applied reports id with
      | some res => s.repo.deliveries[id]?.map (applyResult (truncateTime clock) res)
      | none => s.repo.deliveries[id]? := fun id => complete_get id
  constructor
  · intro id new stored
    rw [row] at stored
    dsimp only
    cases applied : s.applied reports id with
    | none =>
        rw [applied] at stored
        exact .inl ⟨new, stored, rfl, .quiet (.refl new) (.inl rfl)⟩
    | some res =>
        rw [applied] at stored
        obtain ⟨report, listed, handed, d, rfl, before, owned, same⟩ := report_of_applied claimed applied
        rw [before] at stored
        cases stored
        refine .inl ⟨d, before, rfl, ?_⟩
        rw [← regular report listed]
        exact move_applyResult owned same
  · intro id gone
    have missing := (complete_changes clock newID (s.results reports)).missing gone
    refine ⟨missing, ?_⟩
    dsimp only
    cases applied : s.applied reports id with
    | none => rfl
    | some res =>
        obtain ⟨_, _, _, d, _, before, _⟩ := report_of_applied claimed applied
        rw [missing] at before
        cases before

theorem commit_claimed (claimed : Claimed s) (stepped : sending.step s (.commit clock newID reports) = some next) :
    Claimed next := by
  simp only [sending, ite_none_right_eq_some, some.injEq] at stepped
  obtain ⟨_, rfl⟩ := stepped
  refine claimed_of_changes claimed (complete_changes clock newID (s.results reports)) rfl ?_
  rintro _ d _ ⟨_, _, _, _, rfl⟩ owner
  exact absurd rfl owner

/-- The invariant: every row is within the limit. -/
structure Bounded (limit : Int) (s : Sending) : Prop where
  keyed : Keyed s
  claimed : Claimed s
  rows : ∀ (id : Text) d, s.repo.deliveries[id]? = some d → Within limit d (streak (s.history id))
  unsent : ∀ id : Text, s.repo.deliveries[id]? = none → s.history id = []

theorem within_unattempted (positive : 0 < limit) (fresh : Unattempted d) : Within limit d 0 := by
  obtain ⟨count, generation, _⟩ := fresh
  exact ⟨by omega, by omega, by omega, fun _ => by omega, .inl rfl⟩

theorem Bounded.moves (bounded : Bounded limit s) (positive : 0 < limit) (moves : Moves limit s next)
    (claimed : Claimed next) : Bounded limit next := by
  refine ⟨?_, claimed, ?_, ?_⟩
  · intro id new stored
    rcases moves.rows id new stored with ⟨old, before, same, _⟩ | ⟨_, named, _⟩
    · rw [same]
      exact bounded.keyed id old before
    · exact named
  · intro id new stored
    rcases moves.rows id new stored with ⟨old, before, _, moved⟩ | ⟨missing, _, fresh, history⟩
    · exact (bounded.rows id old before).move moved
    · rw [history, bounded.unsent id missing]
      exact within_unattempted positive fresh
  · intro id gone
    obtain ⟨missing, history⟩ := moves.missing id gone
    rw [history]
    exact bounded.unsent id missing

theorem bounded_step {label : SendStep} (bounded : Bounded (attemptLimit retry) s) (regular : Regular retry s label)
    (stepped : sending.step s label = some next) : Bounded (attemptLimit retry) next := by
  cases label with
  | call label =>
      apply bounded.moves attemptLimit_pos (call_moves regular stepped)
      exact call_claimed bounded.keyed bounded.claimed regular stepped
  | commit clock newID reports =>
      apply bounded.moves attemptLimit_pos (commit_moves bounded.claimed regular stepped)
      exact commit_claimed bounded.claimed stepped

theorem bounded_of_reaches (reached : sending.Reaches (Regular retry) { repo := { tenant } } s) :
    Bounded (attemptLimit retry) s := by
  apply System.Reaches.invariant _ (fun _ _ _ bounded regular stepped => bounded_step bounded regular stepped) reached
  refine ⟨?_, ?_, ?_, fun _ _ => rfl⟩
  · intro id d stored
    cases stored
  · intro id row held
    cases held
  · intro id d stored
    cases stored

theorem commit_spares {id : Text} (claimed : Claimed s)
    (stepped : sending.step s (.commit clock newID reports) = some next) (applied : s.applied reports id = some res)
    (spared : consumes res.errorClass = false) (stored : s.repo.deliveries[id]? = some d) :
    ∃ new, next.repo.deliveries[id]? = some new ∧ new.attemptCount = d.attemptCount := by
  simp only [sending, ite_none_right_eq_some, some.injEq] at stepped
  obtain ⟨_, rfl⟩ := stepped
  obtain ⟨report, _, row, _, rfl, _⟩ := report_of_applied claimed applied
  refine ⟨applyResult (truncateTime clock) (report.result row) d, ?_, ?_⟩
  · rw [complete_get, show s.repo.decidingResult (s.results reports) id = _ from applied, stored]
    rfl
  · exact if_neg (ne_true_of_eq_false (decide_of_spared row.attemptCount spared))

/-- In every run under one retry policy, the count of a delivery stays within the
limit plus one for each requeue, and results that use up an attempt end in a failure
or a requeue before there are more of them than the limit. -/
theorem attempts_bounded {tenant : Text} (reached : sending.Reaches (Regular retry) { repo := { tenant } } s) :
    (∀ (id : Text) d, s.repo.deliveries[id]? = some d → d.attemptCount ≤ attemptLimit retry + d.retryGen) ∧
      (∀ clock newID reports next, sending.step s (.commit clock newID reports) = some next →
        ∀ (id : Text) res d, s.applied reports id = some res → s.repo.deliveries[id]? = some d →
          res.errorClass ∈ [ErrorClass.auth, .permanent, .policy] →
          ∃ new, next.repo.deliveries[id]? = some new ∧ new.attemptCount = d.attemptCount) ∧
      ∀ id : Text, (streak (s.history id) : Int) < attemptLimit retry := by
  have bounded := bounded_of_reaches reached
  refine ⟨fun id d stored => (bounded.rows id d stored).count, ?_, ?_⟩
  · intro clock newID reports next stepped id res d applied stored spared
    apply commit_spares bounded.claimed stepped applied _ stored
    cases errorClass : res.errorClass <;> simp [errorClass, consumes] at spared ⊢
  · intro id
    cases stored : s.repo.deliveries[id]? with
    | none =>
        rw [bounded.unsent id stored]
        exact attemptLimit_pos
    | some d => exact (bounded.rows id d stored).lt_limit attemptLimit_pos

end

/-- Two transient failures under a limit of two, then a requeue. -/
def twice : RetryPolicy where
  maxAttempts := 2

def claimBy (now : Time) : SendStep :=
  .call (.claim {
    lane := .bulk, campaignIDs := none, limit := 10, leaseFor := 5000000, workerID := text "w", now })

def reportTransient (now : Time) : SendStep :=
  .commit now (fun _ => text "a")
    [{ deliveryID := text "d1", policy := { retry := twice, jitter := 0 }, failure := { errorClass := .transient }, now }]

def retryRun : List SendStep :=
  [.call (.insertBatch 1000000 (fun _ => text "d1") [{ emailNorm := text "a@x.io", status := .queued }]),
    claimBy 2000000, reportTransient 3000000, claimBy 100000000000, reportTransient 100001000000,
    .call (.requeue { statuses := [.failed] } 0)]

theorem retryRun_regular : sending.Guarded (Regular twice) {} retryRun := by
  have inserted : Regular twice {} (.call (.insertBatch 1000000 (fun _ => text "d1")
      [{ emailNorm := text "a@x.io", status := .queued }])) := by
    constructor
    · decide
    · decide
  have reported : ∀ (s : Sending) now, Regular twice s (reportTransient now) := by
    intro s now report listed
    rw [mem_singleton.mp listed]
  exact ⟨inserted, fun _ _ => ⟨trivial, fun s _ => ⟨reported s _, fun _ _ => ⟨trivial, fun s _ =>
    ⟨reported s _, fun _ _ => ⟨trivial, fun _ _ => trivial⟩⟩⟩⟩⟩⟩

theorem bounded_after_retryRun : ∃ s d, sending.run {} retryRun = some s ∧
    s.repo.deliveries[text "d1"]? = some d ∧ d.attemptCount = 2 ∧ d.retryGen = 1 ∧
      d.attemptCount ≤ attemptLimit twice + d.retryGen := by
  have row : ((sending.run {} retryRun).bind fun s => s.repo.deliveries[text "d1"]?).map
      (fun d => (d.attemptCount, d.retryGen)) = some (2, 1) := by decide +kernel
  obtain ⟨d, found, same⟩ := map_eq_some_iff.mp row
  obtain ⟨s, ran, stored⟩ := bind_eq_some_iff.mp found
  rw [Prod.mk.injEq] at same
  have reached := System.reaches_of_run retryRun_regular ran
  exact ⟨s, d, ran, stored, same.1, same.2, (attempts_bounded reached).1 (text "d1") d stored⟩

end Sendplane.Sender
