import Sendplane.Data.System
import Sendplane.Memstore.DeliveryInsert

namespace Sendplane.Memstore

open Data Store DeliveryRepo Option

/-- Workers report only on deliveries that a claim returned to them. -/
structure Queue where
  repo : DeliveryRepo := {}
  claims : List (Text × Text) := []

inductive QueueStep where
  | insertBatch (clock : Time) (newID : Nat → Text) (ds : List Delivery)
  | claim (req : ClaimRequest)
  | markSent (id worker messageID : Text) (time : Time)
  | complete (clock : Time) (newID : Nat → Text) (results : List DeliveryResult)
  | markBounced (id : Text) (time : Time)
  | markComplained (id : Text) (time : Time)
  | releaseExpiredLeases (now : Time) (limit : Int)
  | cancel (clock : Time) (campaignID : Text) (limit : Int)
  | requeue (filter : RetryFilter) (limit : Int)

def cancellable : List DeliveryStatus := [.pending, .queued, .deferred]

def queue : System Queue QueueStep where
  step
    | q, .insertBatch clock newID ds => some { q with repo := (q.repo.insertBatch clock newID ds).2 }
    | q, .claim req => some {
        repo := (q.repo.claim req).2
        claims := (q.repo.claimed req).map (fun entry => (req.workerID, entry.1)) ++ q.claims }
    | q, .markSent id worker messageID time =>
        if (worker, id) ∈ q.claims then
          some { q with repo := (q.repo.markSent id worker messageID time).2 }
        else none
    | q, .complete clock newID results =>
        if ∀ res ∈ results, (res.leaseOwner, res.deliveryID) ∈ q.claims then
          some { q with repo := q.repo.complete clock newID results }
        else none
    | q, .markBounced id time => some { q with repo := (q.repo.markBounced id time).2 }
    | q, .markComplained id time => some { q with repo := (q.repo.markComplained id time).2 }
    | q, .releaseExpiredLeases now limit =>
        some { q with repo := (q.repo.releaseExpiredLeases now limit).2 }
    | q, .cancel clock campaignID limit => some { q with
        repo := (q.repo.bulkTransition clock campaignID cancellable .cancelled limit).2 }
    | q, .requeue filter limit => some { q with repo := (q.repo.requeue filter limit).2 }

/-- From a terminal status only a bounce or a complaint of a sent delivery
leads on. -/
def TerminalStep (old new : Delivery) : Prop :=
  old.status.terminal = true →
    new.status = old.status ∨ old.status = .sent ∧ (new.status = .bounced ∨ new.status = .complained)

/-- No delivery that is finished becomes unfinished. -/
def TerminalKept (before after : DeliveryRepo) : Prop :=
  ∀ (id : Text) (d : Delivery), before.deliveries[id]? = some d →
    ∃ next, after.deliveries[id]? = some next ∧ TerminalStep d next

variable {after : DeliveryRepo}

theorem terminalKept_of_changes (changes : Table.Changes allowed before.deliveries after.deliveries)
    (kept : ∀ id d next, before.deliveries[id]? = some d → allowed id d next → TerminalStep d next) :
    TerminalKept before after := by
  intro id d stored
  obtain ⟨next, moved, same | may⟩ := changes.get stored
  · exact ⟨next, moved, fun _ => .inl (by rw [same])⟩
  · exact ⟨next, moved, kept id d next stored may⟩

theorem terminalStep_of_open (notTerminal : old.status.terminal = false) : TerminalStep old new := by
  intro terminal
  rw [notTerminal] at terminal
  cases terminal

/-- Only a leased row, or one its worker has just marked as sent, has an owner. -/
def OwnedInFlight (d : Delivery) : Prop :=
  d.leaseOwner ≠ [] → d.status = .leased ∨ d.status = .sent

/-- Every delivery that was ever claimed is stored, and owned only in flight. -/
def ClaimsHeld (q : Queue) : Prop :=
  ∀ worker id, (worker, id) ∈ q.claims → ∃ d, q.repo.deliveries[id]? = some d ∧ OwnedInFlight d

variable {q : Queue}

theorem claimsHeld_of_changes (held : ClaimsHeld q) (changes : Table.Changes allowed q.repo.deliveries after.deliveries)
    (kept : ∀ id d next, allowed id d next → OwnedInFlight d → OwnedInFlight next) :
    ClaimsHeld { q with repo := after } := by
  intro worker id claimed
  obtain ⟨d, stored, owned⟩ := held worker id claimed
  obtain ⟨next, moved, same | may⟩ := changes.get stored
  · exact ⟨next, moved, same ▸ owned⟩
  · exact ⟨next, moved, kept id d next may owned⟩

variable {d : Delivery}

theorem ownedInFlight_of_released (released : d.leaseOwner = []) : OwnedInFlight d :=
  fun owned => absurd released owned

theorem claimsHeld_of_releases (held : ClaimsHeld q)
    (changes : Table.Changes allowed q.repo.deliveries after.deliveries)
    (releases : ∀ id d next, allowed id d next → next.leaseOwner = []) : ClaimsHeld { q with repo := after } :=
  claimsHeld_of_changes held changes fun id d next may _ =>
    ownedInFlight_of_released (releases id d next may)

/-- The side condition on a step: no inserted row replaces a stored one, and a
result that is applied to a sent delivery does not say anything but sent,
bounced or complained. -/
def Orderly (q : Queue) : QueueStep → Prop
  | .insertBatch clock newID ds =>
      ∀ d ∈ DeliveryRepo.accepted (truncateTime clock) newID 0 ds q.repo, q.repo.deliveries[d.id]? = none
  | .complete _ _ results => ∀ (id : Text) (res : DeliveryResult) (d : Delivery),
      q.repo.decidingResult results id = some res → q.repo.deliveries[id]? = some d →
      d.status = .sent → res.newStatus ∈ [DeliveryStatus.sent, .bounced, .complained]
  | _ => True

def QueueStep.isRequeue : QueueStep → Bool
  | .requeue _ _ => true
  | _ => false

theorem insertBatch_get {id : Text}
    (fresh : ∀ row ∈ accepted (truncateTime clock) newID 0 ds repo, repo.deliveries[row.id]? = none)
    (stored : repo.deliveries[id]? = some d) : (repo.insertBatch clock newID ds).2.deliveries[id]? = some d := by
  unfold insertBatch
  split
  · exact stored
  · rw [insertRows_get_of_not_mem, stored]
    intro written
    obtain ⟨row, member, rfl⟩ := List.mem_map.mp written
    rw [fresh row member] at stored
    cases stored

theorem claimable_waiting (eligible : claimable req d = true) : d.status ∈ cancellable := by
  simp only [claimable, Bool.and_eq_true] at eligible
  have status := eligible.1.1.2
  unfold claimableStatus at status
  cases waiting : d.status <;> simp [waiting, cancellable] at status ⊢

theorem open_of_waiting (waiting : d.status ∈ cancellable) : d.status.terminal = false := by
  have statuses : d.status = .pending ∨ d.status = .queued ∨ d.status = .deferred := by
    simpa [cancellable] using waiting
  rcases statuses with status | status | status <;> rw [status] <;> rfl

theorem OwnedInFlight.unowned (owned : OwnedInFlight d) (waiting : d.status ∈ cancellable) : d.leaseOwner = [] := by
  by_contra owner
  rcases owned owner with leased | sent
  · rw [leased] at waiting
    simp [cancellable] at waiting
  · rw [sent] at waiting
    simp [cancellable] at waiting

theorem transitions_source (some : source ≠ []) (selected : transitions campaignID source target d = true) :
    d.status ∈ source := by
  simp only [transitions, matchStatus, matchAny, Bool.and_eq_true, Bool.or_eq_true, List.isEmpty_iff, some,
    false_or, List.contains_iff_mem] at selected
  exact selected.1.2

variable {next : Queue} {label : QueueStep}

theorem claimsHeld_step (held : ClaimsHeld q) (orderly : Orderly q label) (stepped : queue.step q label = some next) :
    ClaimsHeld next := by
  cases label with
  | insertBatch clock newID ds =>
      cases stepped
      intro worker id claimed
      obtain ⟨d, stored, owned⟩ := held worker id claimed
      exact ⟨d, insertBatch_get orderly stored, owned⟩
  | claim req =>
      cases stepped
      intro worker id claimed
      rcases List.mem_append.mp claimed with taken | earlier
      · obtain ⟨⟨key, d⟩, member, same⟩ := List.mem_map.mp taken
        cases same
        obtain ⟨stored, _⟩ := mem_claimed member
        refine ⟨leaseTo req d, ?_, fun _ => .inl rfl⟩
        rw [claim_get, if_pos (List.mem_map_of_mem member), stored]
        rfl
      · have kept := claimsHeld_of_changes held (claim_changes req) (by
          rintro _ _ _ ⟨_, _, rfl⟩ _
          exact fun _ => .inl rfl)
        exact kept worker id earlier
  | markSent id worker messageID time =>
      simp only [queue, ite_none_right_eq_some, some.injEq] at stepped
      obtain ⟨_, rfl⟩ := stepped
      exact claimsHeld_of_changes held (markSent_changes id worker messageID time) (by
        rintro _ _ _ ⟨_, _, _, _, rfl⟩ _
        exact fun _ => .inr rfl)
  | complete clock newID results =>
      simp only [queue, ite_none_right_eq_some, some.injEq] at stepped
      obtain ⟨_, rfl⟩ := stepped
      apply claimsHeld_of_releases held (complete_changes clock newID results)
      rintro _ _ _ ⟨_, _, _, _, rfl⟩
      rfl
  | markBounced id time | markComplained id time =>
      cases stepped
      apply claimsHeld_of_releases held (markTerminal_changes id)
      rintro _ _ _ ⟨_, _, rfl⟩
      rfl
  | releaseExpiredLeases _ limit | requeue _ limit =>
      cases stepped
      apply claimsHeld_of_releases held (changeWhere_changes _ limit _)
      rintro _ _ _ ⟨_, _, rfl⟩
      rfl
  | cancel clock campaignID limit =>
      cases stepped
      -- The transition keeps the lease, but none of the statuses it leaves has one.
      exact claimsHeld_of_changes held (changeWhere_changes _ limit _) (by
        rintro _ d _ ⟨_, selected, rfl⟩ owned
        exact ownedInFlight_of_released (owned.unowned (transitions_source (by decide) selected)))

theorem sent_of_held {worker id : Text} (held : ClaimsHeld q) (claimed : (worker, id) ∈ q.claims)
    (stored : q.repo.deliveries[id]? = some d) (owned : d.leaseOwner ≠ []) (terminal : d.status.terminal = true) :
    d.status = .sent := by
  obtain ⟨row, found, inFlight⟩ := held worker id claimed
  rw [stored] at found
  cases found
  rcases inFlight owned with leased | sent
  · rw [leased] at terminal
    cases terminal
  · exact sent

theorem terminalKept_step (held : ClaimsHeld q) (orderly : Orderly q label) (notRequeue : label.isRequeue = false)
    (stepped : queue.step q label = some next) : TerminalKept q.repo next.repo := by
  cases label with
  | insertBatch clock newID ds =>
      cases stepped
      intro id d stored
      exact ⟨d, insertBatch_get orderly stored, fun _ => .inl rfl⟩
  | claim req =>
      cases stepped
      apply terminalKept_of_changes (claim_changes req)
      rintro id d _ _ ⟨_, eligible, rfl⟩
      exact terminalStep_of_open (open_of_waiting (claimable_waiting eligible))
  | markSent id worker messageID time =>
      simp only [queue, ite_none_right_eq_some, some.injEq] at stepped
      obtain ⟨_, rfl⟩ := stepped
      apply terminalKept_of_changes (markSent_changes id worker messageID time)
      rintro key d _ _ ⟨_, leased, _, _, rfl⟩
      exact terminalStep_of_open (by rw [leased]; rfl)
  | complete clock newID results =>
      simp only [queue, ite_none_right_eq_some, some.injEq] at stepped
      obtain ⟨claimed, rfl⟩ := stepped
      apply terminalKept_of_changes (complete_changes clock newID results)
      rintro id d _ stored ⟨res, decides, owned, owner, rfl⟩ terminal
      obtain ⟨member, target, _⟩ := mem_of_decidingResult decides
      have named := target ▸ claimed res member
      have sent := sent_of_held held named stored (owner ▸ owned) terminal
      have outcome := orderly id res d decides stored sent
      change res.newStatus = d.status ∨ _ ∧ (res.newStatus = .bounced ∨ res.newStatus = .complained)
      rw [sent]
      simpa using outcome
  | markBounced id time | markComplained id time =>
      cases stepped
      apply terminalKept_of_changes (markTerminal_changes id)
      rintro key d _ _ ⟨_, sent, rfl⟩ _
      exact .inr ⟨sent, by simp [markTerminalRow, truncateDelivery]⟩
  | releaseExpiredLeases now limit =>
      cases stepped
      apply terminalKept_of_changes (changeWhere_changes _ limit _)
      rintro id d _ _ ⟨_, expired, rfl⟩
      simp only [leaseExpired, Bool.and_eq_true, decide_eq_true_eq] at expired
      exact terminalStep_of_open (by rw [expired.1.1]; rfl)
  | cancel clock campaignID limit =>
      cases stepped
      apply terminalKept_of_changes (changeWhere_changes _ limit _)
      rintro id d _ _ ⟨_, selected, rfl⟩
      exact terminalStep_of_open (open_of_waiting (transitions_source (by decide) selected))
  | requeue filter limit => cases notRequeue

theorem claimsHeld_of_reaches (unclaimed : start.claims = []) (reached : queue.Reaches Orderly start q) :
    ClaimsHeld q := by
  refine System.Reaches.invariant ?_ (fun _ _ _ held orderly stepped =>
    claimsHeld_step held orderly stepped) reached
  intro worker id claimed
  rw [unclaimed] at claimed
  cases claimed

/-- In every orderly run, a step other than a requeue keeps every terminal
status, up to the bounce or the complaint of a sent delivery. -/
theorem terminal_kept_of_orderly_run {start q next : Queue} {label : QueueStep}
    (unclaimed : start.claims = []) (reached : queue.Reaches Orderly start q)
    (orderly : Orderly q label) (notRequeue : label.isRequeue = false)
    (stepped : queue.step q label = some next) : TerminalKept q.repo next.repo :=
  terminalKept_step (claimsHeld_of_reaches unclaimed reached) orderly notRequeue stepped

/-- One delivery and one worker, whose first claim expires before it reports. -/
def insertQueued : QueueStep :=
  .insertBatch 1000000 (fun _ => text "d1") [{ emailNorm := text "a@x.io", status := .queued }]

def claimAt (now : Time) : QueueStep :=
  .claim { lane := .bulk, campaignIDs := none, limit := 10, leaseFor := 5000000,
           workerID := text "w", now }

def sendRun : List QueueStep :=
  [insertQueued, claimAt 2000000, .markSent (text "d1") (text "w") (text "mid") 3000000]

def report (status : DeliveryStatus) : QueueStep :=
  .complete 12000000 (fun _ => []) [{ deliveryID := text "d1", leaseOwner := text "w", newStatus := status }]

theorem report_orderly : Orderly q (report .sent) := by
  intro id res d decides _ _
  obtain ⟨member, _, _⟩ := mem_of_decidingResult decides
  rw [List.mem_singleton.mp member]
  exact List.mem_cons_self

theorem sendRun_orderly : queue.Guarded Orderly {} sendRun := by
  refine ⟨?_, fun _ _ => ⟨trivial, fun _ _ => ⟨trivial, fun _ _ => trivial⟩⟩⟩
  change ∀ d ∈ accepted _ _ _ _ _, _
  decide

theorem terminal_kept_after_sendRun :
    ∃ q next, queue.run {} sendRun = some q ∧ queue.step q (report .sent) = some next ∧
      TerminalKept q.repo next.repo := by
  obtain ⟨q, ran⟩ := isSome_iff_exists.mp
    (by decide : (queue.run {} sendRun).isSome = true)
  have enabled : ((queue.run {} sendRun).bind fun q => queue.step q (report .sent)).isSome = true := by
    decide
  rw [ran] at enabled
  obtain ⟨next, stepped⟩ := isSome_iff_exists.mp enabled
  exact ⟨q, next, ran, stepped, terminal_kept_of_orderly_run rfl
    (System.reaches_of_run sendRun_orderly ran) report_orderly rfl stepped⟩

/-- The worker claims the delivery again after its first lease expired, and
marks it sent.  The result of the first claim arrives last and is applied. -/
theorem late_result_reopens_sent :
    ¬ ∀ (start q next : Queue) (label : QueueStep), start.claims = [] → queue.Reachable start q →
        label.isRequeue = false → queue.step q label = some next → TerminalKept q.repo next.repo := by
  intro claimed
  let labels := [insertQueued, claimAt 2000000, .releaseExpiredLeases 9000000 0, claimAt 10000000,
    .markSent (text "d1") (text "w") (text "mid") 11000000]
  let status := fun q : Queue => (q.repo.deliveries[text "d1"]?).map Delivery.status
  have sent : (queue.run {} labels).map status = some (some .sent) := by decide
  have reopened : ((queue.run {} labels).bind fun q => queue.step q (report .deferred)).map status =
      some (some .deferred) := by decide
  obtain ⟨q, ran, before⟩ := map_eq_some_iff.mp sent
  rw [ran] at reopened
  obtain ⟨next, stepped, after⟩ := map_eq_some_iff.mp reopened
  obtain ⟨d, stored, isSent⟩ := map_eq_some_iff.mp before
  obtain ⟨row, moved, kept⟩ := claimed {} q next (report .deferred) rfl
    (System.reachable_of_run ran) rfl stepped (text "d1") d stored
  have isDeferred : row.status = .deferred := by
    simpa [status, moved] using after
  have outcome := kept (by rw [isSent]; rfl)
  rw [isDeferred, isSent] at outcome
  simp at outcome

end Sendplane.Memstore
