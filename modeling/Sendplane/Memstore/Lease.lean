import Sendplane.Memstore.DeliveryLifecycle

namespace Sendplane.Memstore

open Data Store DeliveryRepo

/-- The calls that move deliveries, from any caller. -/
inductive RepoStep where
  | insertBatch (clock : Time) (newID : Nat → Text) (ds : List Delivery)
  | claim (req : ClaimRequest)
  | markSent (id owner messageID : Text) (time : Time)
  | complete (clock : Time) (newID : Nat → Text) (results : List DeliveryResult)
  | markBounced (id : Text) (time : Time)
  | markComplained (id : Text) (time : Time)
  | releaseExpiredLeases (now : Time) (limit : Int)
  | bulkTransition (clock : Time) (campaignID : Text) (source : List DeliveryStatus) (target : DeliveryStatus)
      (limit : Int)
  | requeue (filter : RetryFilter) (limit : Int)

def calls : System DeliveryRepo RepoStep where
  step
    | repo, .insertBatch clock newID ds => some (repo.insertBatch clock newID ds).2
    | repo, .claim req => some (repo.claim req).2
    | repo, .markSent id owner messageID time => some (repo.markSent id owner messageID time).2
    | repo, .complete clock newID results => some (repo.complete clock newID results)
    | repo, .markBounced id time => some (repo.markBounced id time).2
    | repo, .markComplained id time => some (repo.markComplained id time).2
    | repo, .releaseExpiredLeases now limit => some (repo.releaseExpiredLeases now limit).2
    | repo, .bulkTransition clock campaignID source target limit =>
        some (repo.bulkTransition clock campaignID source target limit).2
    | repo, .requeue filter limit => some (repo.requeue filter limit).2

def leaseEnd (req : ClaimRequest) : Time :=
  truncateTime (truncateTime req.now + req.leaseFor)

/-- What callers keep to: nothing but a claim makes a row leased, and a claim
names the worker and an end. -/
def RepoStep.Proper : RepoStep → Prop
  | .insertBatch _ _ ds => ∀ d ∈ ds, d.status ∈ [DeliveryStatus.pending, .queued, .suppressed] ∧ d.leaseOwner = []
  | .claim req => req.workerID ≠ [] ∧ leaseEnd req ≠ 0
  | .complete _ _ results => ∀ res ∈ results, res.newStatus ≠ .leased
  -- An empty list of sources would match every status.
  | .bulkTransition _ _ source target _ => source ≠ [] ∧ (∀ status ∈ source, status ∈ cancellable) ∧ target ≠ .leased
  | _ => True

instance : DecidablePred RepoStep.Proper
  | .insertBatch _ _ ds => inferInstanceAs (Decidable (∀ d ∈ ds,
      d.status ∈ [DeliveryStatus.pending, .queued, .suppressed] ∧ d.leaseOwner = []))
  | .claim req => inferInstanceAs (Decidable (req.workerID ≠ [] ∧ leaseEnd req ≠ 0))
  | .complete _ _ results => inferInstanceAs (Decidable (∀ res ∈ results, res.newStatus ≠ .leased))
  | .bulkTransition _ _ source target _ => inferInstanceAs (Decidable
      (source ≠ [] ∧ (∀ status ∈ source, status ∈ cancellable) ∧ target ≠ .leased))
  | .markSent .. | .markBounced .. | .markComplained .. | .releaseExpiredLeases .. | .requeue .. =>
      inferInstanceAs (Decidable True)

/-- A lease that the release of expired leases can undo. -/
structure LeaseSound (d : Delivery) : Prop where
  owned : OwnedInFlight d
  held : d.status = .leased → d.leaseOwner ≠ [] ∧ d.leaseUntil ≠ 0

variable {d : Delivery}

theorem leaseSound_of_released (released : d.leaseOwner = []) (idle : d.status ≠ .leased) : LeaseSound d :=
  ⟨ownedInFlight_of_released released, fun leased => absurd leased idle⟩

variable {now : Time}

theorem leaseSound_inserted {tenant id : Text} (status : d.status ∈ [DeliveryStatus.pending, .queued, .suppressed])
    (unowned : d.leaseOwner = []) : LeaseSound (stampDelivery tenant now (withID id d)) := by
  have sameStatus : (stampDelivery tenant now (withID id d)).status = d.status := by
    unfold withID
    split <;> rfl
  have sameOwner : (stampDelivery tenant now (withID id d)).leaseOwner = d.leaseOwner := by
    unfold withID
    split <;> rfl
  apply leaseSound_of_released
  · rw [sameOwner, unowned]
  · rw [sameStatus]
    intro leased
    rw [leased] at status
    simp at status

theorem leaseSound_leaseTo (named : req.workerID ≠ []) (ends : leaseEnd req ≠ 0) : LeaseSound (leaseTo req d) :=
  ⟨fun _ => .inl rfl, fun _ => ⟨named, ends⟩⟩

theorem leaseSound_markSentRow : LeaseSound (markSentRow messageID time d) :=
  ⟨fun _ => .inr rfl, nofun⟩

theorem leaseSound_applyResult (idle : res.newStatus ≠ .leased) : LeaseSound (applyResult now res d) :=
  leaseSound_of_released rfl idle

theorem leaseSound_releaseRow : LeaseSound (releaseRow now d) := by
  apply leaseSound_of_released rfl
  change (if d.attemptCount > 0 then DeliveryStatus.deferred else .queued) ≠ .leased
  split <;> decide

theorem leaseSound_transitionRow (sound : LeaseSound d) (waiting : d.status ∈ cancellable) (idle : target ≠ .leased) :
    LeaseSound (transitionRow target now d) :=
  leaseSound_of_released (sound.owned.unowned waiting) idle

def LeasesSound (repo : DeliveryRepo) : Prop :=
  ∀ (id : Text) d, repo.deliveries[id]? = some d → LeaseSound d

variable {repo : DeliveryRepo}

theorem leasesSound_of_changes (sound : LeasesSound repo)
    (changes : Table.Changes allowed repo.deliveries after.deliveries)
    (kept : ∀ id d next, allowed id d next → LeaseSound d → LeaseSound next) : LeasesSound after := by
  intro id next stored
  obtain ⟨d, before, same | may⟩ := changes.origin stored
  · exact same ▸ sound id d before
  · exact kept id d next may (sound id d before)

theorem leasesSound_step (sound : LeasesSound repo) (proper : label.Proper)
    (stepped : calls.step repo label = some next) : LeasesSound next := by
  cases label with
  | insertBatch clock newID ds =>
      cases stepped
      intro id d stored
      rcases insertBatch_origin stored with before | ⟨row, written, _, rfl⟩
      · exact sound id d before
      · obtain ⟨given, listed, fresh, rfl⟩ := mem_accepted written
        obtain ⟨status, unowned⟩ := proper given listed
        exact leaseSound_inserted status unowned
  | claim req =>
      cases stepped
      apply leasesSound_of_changes sound (claim_changes req)
      rintro _ d _ ⟨_, _, rfl⟩ _
      exact leaseSound_leaseTo proper.1 proper.2
  | markSent id owner messageID time =>
      cases stepped
      apply leasesSound_of_changes sound (markSent_changes id owner messageID time)
      rintro _ d _ ⟨_, _, _, _, rfl⟩ _
      exact leaseSound_markSentRow
  | complete clock newID results =>
      cases stepped
      apply leasesSound_of_changes sound (complete_changes clock newID results)
      rintro _ d _ ⟨res, decides, _, _, rfl⟩ _
      exact leaseSound_applyResult (proper res (mem_of_decidingResult decides).1)
  | markBounced id time | markComplained id time =>
      cases stepped
      apply leasesSound_of_changes sound (markTerminal_changes id)
      rintro _ d _ ⟨_, _, rfl⟩ _
      exact leaseSound_of_released rfl nofun
  | releaseExpiredLeases now limit =>
      cases stepped
      apply leasesSound_of_changes sound (changeWhere_changes _ limit _)
      rintro _ d _ ⟨_, _, rfl⟩ _
      exact leaseSound_releaseRow
  | bulkTransition clock campaignID source target limit =>
      cases stepped
      obtain ⟨some, sources, idle⟩ := proper
      apply leasesSound_of_changes sound (changeWhere_changes _ limit _)
      rintro _ d _ ⟨_, selected, rfl⟩ before
      exact leaseSound_transitionRow before (sources _ (transitions_source some selected)) idle
  | requeue filter limit =>
      cases stepped
      apply leasesSound_of_changes sound (changeWhere_changes _ limit _)
      rintro _ d _ ⟨_, _, rfl⟩ _
      exact leaseSound_of_released rfl nofun

theorem leasesSound_of_reaches (empty : start.deliveries = ∅)
    (reached : calls.Reaches (fun _ label => label.Proper) start repo) : LeasesSound repo := by
  apply System.Reaches.invariant _ (fun _ _ _ sound proper stepped => leasesSound_step sound proper stepped) reached
  intro id d stored
  rw [empty] at stored
  cases stored

theorem release_of_expired {id : Text} (stored : repo.deliveries[id]? = some d)
    (expired : leaseExpired (truncateTime now) d = true) (unlimited : limit ≤ 0) :
    (repo.releaseExpiredLeases now limit).2.deliveries[id]? = some (releaseRow (truncateTime now) d) := by
  rw [releaseExpiredLeases, changeWhere_get, if_pos (mem_chosen unlimited stored expired), stored]
  rfl

theorem release_of_unexpired {id : Text} (stored : repo.deliveries[id]? = some d)
    (unexpired : leaseExpired (truncateTime now) d = false) :
    (repo.releaseExpiredLeases now limit).2.deliveries[id]? = some d := by
  obtain ⟨next, found, same | ⟨_, expired, _⟩⟩ :=
    (changeWhere_changes (fun _ row => leaseExpired (truncateTime now) row) limit
      (releaseRow (truncateTime now))).get stored
  · exact same ▸ found
  · rw [unexpired] at expired
    cases expired

/-- The release of expired leases gives the delivery back. -/
def FreedAt (repo : DeliveryRepo) (id : Text) (d : Delivery) (now : Time) : Prop :=
  ∀ limit ≤ 0, ∃ next, (repo.releaseExpiredLeases now limit).2.deliveries[id]? = some next ∧
    next.status = (if d.attemptCount > 0 then .deferred else .queued) ∧ next.attemptCount = d.attemptCount

/-- In every state that proper calls lead to, only leased and sent rows have an
owner, a leased row is freed at every millisecond after the end of its lease,
and rows in other statuses are not released. -/
theorem leases_are_freed {start repo : DeliveryRepo} (empty : start.deliveries = ∅)
    (reached : calls.Reaches (fun _ label => label.Proper) start repo) (id : Text) (d : Delivery)
    (stored : repo.deliveries[id]? = some d) :
    (d.leaseOwner ≠ [] → d.status = .leased ∨ d.status = .sent) ∧
      (d.status = .leased → d.leaseOwner ≠ [] ∧ d.leaseUntil ≠ 0 ∧
        ∀ now, d.leaseUntil < truncateTime now → FreedAt repo id d now) ∧
      (d.status ≠ .leased → ∀ now limit, (repo.releaseExpiredLeases now limit).2.deliveries[id]? = some d) := by
  have sound := leasesSound_of_reaches empty reached id d stored
  refine ⟨sound.owned, ?_, ?_⟩
  · intro leased
    obtain ⟨owner, ends⟩ := sound.held leased
    refine ⟨owner, ends, ?_⟩
    intro now later limit unlimited
    have expired : leaseExpired (truncateTime now) d = true := by
      simp [leaseExpired, leased, ends, later]
    exact ⟨_, release_of_expired stored expired unlimited, rfl, rfl⟩
  · intro idle now limit
    apply release_of_unexpired stored
    simp [leaseExpired, idle]

/-- One delivery, leased to a worker until seven milliseconds. -/
def leaseRun : List RepoStep :=
  [.insertBatch 1000000 (fun _ => text "d1") [{ emailNorm := text "a@x.io", status := .queued }],
    .claim { lane := .bulk, campaignIDs := none, limit := 10, leaseFor := 5000000, workerID := text "w", now := 2000000 }]

theorem leaseRun_row : ∃ repo d, calls.run {} leaseRun = some repo ∧
    calls.Reaches (fun _ label => label.Proper) {} repo ∧ repo.deliveries[text "d1"]? = some d ∧
      d.status = .leased ∧ d.leaseUntil = 7000000 := by
  obtain ⟨repo, ran⟩ := Option.isSome_iff_exists.mp (by decide : (calls.run {} leaseRun).isSome = true)
  have row : ((calls.run {} leaseRun).bind fun repo => repo.deliveries[text "d1"]?).map
      (fun d => (d.status, d.leaseUntil)) = some (.leased, 7000000) := by decide
  rw [ran, Option.map_eq_some_iff] at row
  obtain ⟨d, stored, same⟩ := row
  rw [Prod.mk.injEq] at same
  have reached := System.reaches_of_run
    (by decide : calls.Guarded (fun _ label => label.Proper) {} leaseRun) ran
  exact ⟨repo, d, ran, reached, stored, same⟩

theorem lease_freed_after_leaseRun : ∃ repo d, calls.run {} leaseRun = some repo ∧
    repo.deliveries[text "d1"]? = some d ∧ d.status = .leased ∧ d.leaseUntil = 7000000 ∧
      FreedAt repo (text "d1") d 8000000 := by
  obtain ⟨repo, d, ran, reached, stored, leased, ends⟩ := leaseRun_row
  have freed := ((leases_are_freed rfl reached (text "d1") d stored).2.1 leased).2.2
  exact ⟨repo, d, ran, stored, leased, ends, freed 8000000 (by rw [ends]; decide)⟩

/-- Half a millisecond after the end the release does not see that it is over. -/
theorem lease_kept_within_millisecond :
    ¬ ∀ (start repo : DeliveryRepo) (id : Text) (d : Delivery) (now : Time), start.deliveries = ∅ →
        calls.Reaches (fun _ label => label.Proper) start repo → repo.deliveries[id]? = some d →
        d.status = .leased → d.leaseUntil < now → FreedAt repo id d now := by
  intro freed
  obtain ⟨repo, d, _, reached, stored, leased, ends⟩ := leaseRun_row
  obtain ⟨next, released, status, _⟩ := freed {} repo (text "d1") d 7500000 rfl reached stored leased
    (by rw [ends]; decide) 0 (le_refl 0)
  have unexpired : leaseExpired (truncateTime 7500000) d = false := by
    simp only [leaseExpired, leased, ends]
    decide
  rw [release_of_unexpired stored unexpired] at released
  cases released
  rw [leased] at status
  split at status <;> cases status

end Sendplane.Memstore
