import Sendplane.Memstore.Calls

namespace Sendplane.Memstore

open Data Store DeliveryRepo TenantStore Table Outbox

class Timestamped (α : Type) where
  times : α → List Time

instance : Timestamped TenantSettings where
  times v := [v.createdAt, v.updatedAt] ++ v.tracking.signingKeys.map SigningKey.createdAt

instance : Timestamped Transport where
  times v := [v.statusChangedAt, v.statusUntil, v.createdAt, v.updatedAt]

instance : Timestamped Sender where
  times v := [v.healthCheckedAt, v.createdAt, v.updatedAt]

instance : Timestamped SendingDomain where
  times v := [v.healthCheckedAt, v.createdAt, v.updatedAt]

instance : Timestamped BounceMailbox where
  times v := [v.health.checkedAt, v.health.lastOKAt, v.createdAt, v.updatedAt]

instance : Timestamped ProbeMailbox where
  times v := [v.health.checkedAt, v.health.lastOKAt, v.createdAt, v.updatedAt]

instance : Timestamped Layout where
  times v := [v.createdAt, v.updatedAt]

instance : Timestamped Template where
  times v := [v.createdAt, v.updatedAt]

instance : Timestamped ProbeRun where
  times v := [v.startedAt, v.receivedAt, v.createdAt]

instance : Timestamped MessageVersion where
  times v := [v.createdAt]

instance : Timestamped Campaign where
  times v := [v.scheduleAt, v.startedAt, v.completedAt, v.stats.computedAt, v.createdAt, v.updatedAt]

instance : Timestamped RecipientChunk where
  times v := [v.createdAt, v.updatedAt]

instance : Timestamped Delivery where
  times v := [v.nextAttemptAt, v.leaseUntil, v.sentAt, v.finishedAt, v.firstOpenedAt, v.firstClickedAt,
    v.unsubscribedAt, v.createdAt, v.updatedAt]

instance : Timestamped DeliveryAttempt where
  times v := [v.startedAt, v.finishedAt, v.createdAt]

instance : Timestamped Suppression where
  times v := [v.createdAt, v.expiresAt]

instance : Timestamped BounceEvent where
  times v := [v.receivedAt, v.createdAt]

instance : Timestamped TrackingEvent where
  times v := [v.createdAt]

instance : Timestamped OutboxEvent where
  times v := [v.nextAttemptAt, v.leaseUntil, v.createdAt, v.deliveredAt]

instance : Timestamped Lock where
  times v := [v.acquiredAt, v.expiresAt]

instance : Timestamped Worker where
  times v := [v.startedAt, v.lastSeenAt]

/-- The times of the row are whole milliseconds. -/
def Truncated {α : Type} [Timestamped α] (row : α) : Prop :=
  ∀ time ∈ Timestamped.times row, truncateTime time = time

/-- Every row of the store is truncated. -/
structure StoreTruncated (s : TenantStore) : Prop where
  settings : ∀ row, s.settings = some row → Truncated row
  transports : Table.All Truncated s.transports
  senders : Table.All Truncated s.senders
  domains : Table.All Truncated s.domains
  bounceMailboxes : Table.All Truncated s.bounceMailboxes
  probeMailboxes : Table.All Truncated s.probeMailboxes
  layouts : Table.All Truncated s.layouts
  templates : Table.All Truncated s.templates
  probeRuns : Table.All Truncated s.probeRuns
  versions : Table.All Truncated s.versions
  campaigns : Table.All Truncated s.campaigns
  chunks : Table.All Truncated s.chunks
  deliveries : Table.All Truncated s.deliveries
  attempts : Table.All Truncated s.attempts
  suppressions : Table.All Truncated s.suppressions
  bounces : Table.All Truncated s.bounces
  tracking : Table.All Truncated s.tracking
  outbox : Table.All Truncated s.outbox
  locks : Table.All Truncated s.locks
  workers : Table.All Truncated s.workers

theorem storeTruncated_empty (tenant : Text) : StoreTruncated { tenant } := by
  constructor
  case settings =>
    intro row stored
    cases stored
  all_goals exact all_empty

namespace RowKind

instance timestamped : (kind : RowKind) → Timestamped kind.Row
  | transport => inferInstanceAs (Timestamped Transport)
  | sender => inferInstanceAs (Timestamped Sender)
  | domain => inferInstanceAs (Timestamped SendingDomain)
  | bounceMailbox => inferInstanceAs (Timestamped BounceMailbox)
  | probeMailbox => inferInstanceAs (Timestamped ProbeMailbox)
  | layout => inferInstanceAs (Timestamped Layout)
  | template => inferInstanceAs (Timestamped Template)
  | probeRun => inferInstanceAs (Timestamped ProbeRun)
  | version => inferInstanceAs (Timestamped MessageVersion)
  | campaign => inferInstanceAs (Timestamped Campaign)
  | bounce => inferInstanceAs (Timestamped BounceEvent)

def untruncated : (kind : RowKind) → kind.Row → List Time
  | transport, v => [v.statusUntil]
  | campaign, v => [v.stats.computedAt]
  | sender, _ | domain, _ | bounceMailbox, _ | probeMailbox, _ | layout, _ | template, _ | probeRun, _ | version, _
  | bounce, _ => []

end RowKind

/-- The times that the call brings and nothing truncates. -/
def RepoCall.untruncated : RepoCall → List Time
  | .create kind _ v | .update kind v => kind.untruncated v
  | .campaignUpdateStats _ stats => [stats.computedAt]
  | .settingsCreate v | .settingsUpdate v => v.tracking.signingKeys.map SigningKey.createdAt
  | _ => []

def RepoCall.Whole (call : RepoCall) : Prop :=
  ∀ time ∈ call.untruncated, truncateTime time = time

variable {s : TenantStore}

theorem StoreTruncated.rows (truncated : StoreTruncated s) (kind : RowKind) : All Truncated (kind.repo.rows.get s) := by
  cases kind with
  | transport => exact truncated.transports
  | sender => exact truncated.senders
  | domain => exact truncated.domains
  | bounceMailbox => exact truncated.bounceMailboxes
  | probeMailbox => exact truncated.probeMailboxes
  | layout => exact truncated.layouts
  | template => exact truncated.templates
  | probeRun => exact truncated.probeRuns
  | version => exact truncated.versions
  | campaign => exact truncated.campaigns
  | bounce => exact truncated.bounces

variable {kind : RowKind}

theorem StoreTruncated.set (truncated : StoreTruncated s) {rows : Table Text kind.Row}
    (all : All Truncated rows) : StoreTruncated (kind.repo.rows.set rows s) := by
  cases kind with
  | transport => exact { truncated with transports := all }
  | sender => exact { truncated with senders := all }
  | domain => exact { truncated with domains := all }
  | bounceMailbox => exact { truncated with bounceMailboxes := all }
  | probeMailbox => exact { truncated with probeMailboxes := all }
  | layout => exact { truncated with layouts := all }
  | template => exact { truncated with templates := all }
  | probeRun => exact { truncated with probeRuns := all }
  | version => exact { truncated with versions := all }
  | campaign => exact { truncated with campaigns := all }
  | bounce => exact { truncated with bounces := all }

attribute [local simp] Truncated Timestamped.times

/-- What the shared table stores is truncated but for the times it leaves alone. -/
theorem truncateRow_truncated_iff :
    Truncated (kind.repo.info.truncateRow row) ↔ ∀ time ∈ kind.untruncated row, truncateTime time = time := by
  cases kind <;> simp [RowKind.repo, RowKind.untruncated, transportRepo, Provider.transportMeta, senderRepo, senderMeta,
    domainRepo, domainMeta, bounceMailboxRepo, bounceMailboxMeta, probeMailboxRepo, probeMailboxMeta, truncateHealth,
    layoutRepo, layoutMeta, templateRepo, templateMeta, probeRunRepo, probeRunMeta, versionRepo, versionMeta,
    campaignRepo, campaignMeta, bounceRepo, bounceMeta]

theorem untruncated_createdRow (tenant : Text) (now : Time) :
    kind.untruncated (createdRow kind.repo.info tenant now (identified kind.repo.info newID v)) =
      kind.untruncated v := by
  cases kind with
  | transport | campaign =>
      simp only [createdRow, identified]
      split <;> split <;> rfl
  | sender | domain | bounceMailbox | probeMailbox | layout | template | probeRun | version | bounce => rfl

theorem untruncated_updatedRow (tenant : Text) (now : Time) :
    kind.untruncated (updatedRow kind.repo.info tenant now cur v) = kind.untruncated v := by
  cases kind <;> rfl

section

variable (truncated : StoreTruncated s)
include truncated

theorem StoreTruncated.insert_iff {id : Text} :
    StoreTruncated (kind.repo.rows.set ((kind.repo.rows.get s).insert id row) s) ↔ Truncated row := by
  constructor
  · intro after
    have all := after.rows kind
    rw [kind.repo.rows.get_set] at all
    exact all id row (get_insert_same _ _ _)
  · intro whole
    exact truncated.set ((truncated.rows kind).insert id whole)

theorem create_truncated_iff (accepted : (RepoCall.apply s (.create kind newID v)).1 = true) :
    StoreTruncated (RepoCall.apply s (.create kind newID v)).2 ↔ RepoCall.Whole (.create kind newID v) := by
  rcases kind.repo.create_cases newID v s with ⟨failure, failed⟩ | ⟨row, rfl, _, created⟩
  · simp only [RepoCall.apply, failed] at accepted
    cases accepted
  · simp only [RepoCall.apply, outcome, created]
    rw [truncated.insert_iff, truncateRow_truncated_iff, untruncated_createdRow]
    rfl

theorem update_truncated_iff (accepted : (RepoCall.apply s (.update kind v)).1 = true) :
    StoreTruncated (RepoCall.apply s (.update kind v)).2 ↔ RepoCall.Whole (.update kind v) := by
  rcases kind.repo.update_cases v s with ⟨failure, failed⟩ | ⟨cur, _, _, updated⟩
  · simp only [RepoCall.apply, failed] at accepted
    cases accepted
  · simp only [RepoCall.apply, outcome, updated]
    rw [truncated.insert_iff, truncateRow_truncated_iff, untruncated_updatedRow]
    rfl

theorem delete_truncated (id : Text) : StoreTruncated (kind.repo.delete id s).2 := by
  rcases kind.repo.delete_cases id s with ⟨failure, failed⟩ | deleted
  · rw [failed]
    exact truncated
  · rw [deleted]
    exact truncated.set ((truncated.rows kind).erase id)

end

structure RepoTruncated (repo : DeliveryRepo) : Prop where
  deliveries : Table.All Truncated repo.deliveries
  attempts : Table.All Truncated repo.attempts

theorem StoreTruncated.repo (truncated : StoreTruncated s) : RepoTruncated s.toDeliveryRepo :=
  ⟨truncated.deliveries, truncated.attempts⟩

theorem StoreTruncated.setRepo (truncated : StoreTruncated s) {repo : DeliveryRepo} (kept : RepoTruncated repo) :
    StoreTruncated { s with toDeliveryRepo := repo } :=
  { truncated with deliveries := kept.deliveries, attempts := kept.attempts }

theorem truncateDelivery_truncated : Truncated (truncateDelivery d) := by
  simp [truncateDelivery]

theorem truncateAttempt_truncated : Truncated (truncateAttempt a) := by
  simp [truncateAttempt]

namespace RepoTruncated

variable {repo : DeliveryRepo}

section

variable (kept : RepoTruncated repo)
include kept

variable {change : Delivery → Delivery}

theorem modify (id : Text) (truncates : ∀ d, Truncated (change d)) :
    RepoTruncated { repo with deliveries := repo.deliveries.modify id change } :=
  { kept with deliveries := kept.deliveries.modify id fun d _ => truncates d }

theorem updateAll (ids : List Text) (truncates : ∀ d, Truncated (change d)) :
    RepoTruncated { repo with deliveries := repo.deliveries.updateAll ids change } :=
  { kept with deliveries := kept.deliveries.updateAll ids fun d _ => truncates d }

theorem putDelivery (now : Time) (d : Delivery) : RepoTruncated (repo.putDelivery now d) :=
  { kept with deliveries := kept.deliveries.insert d.id truncateDelivery_truncated }

theorem insertRow {now : Time} (inserted : repo.insertRow now newID d = some next) : RepoTruncated next := by
  unfold DeliveryRepo.insertRow at inserted
  split at inserted
  · dsimp only at inserted
    split at inserted
    · cases inserted
    · cases inserted
      refine putDelivery ?_ now _
      exact ⟨kept.deliveries, kept.attempts⟩
  · cases inserted
    exact kept.putDelivery now _

theorem insertRows (now : Time) (newID : Nat → Text) (index : Nat) (ds : List Delivery) :
    RepoTruncated (insertRows now newID index ds repo).2 := by
  induction ds generalizing repo index with
  | nil => exact kept
  | cons d rest ih =>
      unfold insertRows
      cases inserted : repo.insertRow now (newID index) d with
      | none => exact ih kept (index + 1)
      | some next => exact ih (kept.insertRow inserted) (index + 1)

theorem insertBatch (clock : Time) (newID : Nat → Text) (ds : List Delivery) :
    RepoTruncated (repo.insertBatch clock newID ds).2 := by
  unfold DeliveryRepo.insertBatch
  split
  · exact kept
  · exact kept.insertRows _ newID 0 ds

theorem completeOne (now : Time) (newID : Text) (res : DeliveryResult) :
    RepoTruncated (repo.completeOne now newID res) := by
  unfold DeliveryRepo.completeOne
  split
  · refine { deliveries := kept.deliveries.modify _ fun d _ => truncateDelivery_truncated, attempts := ?_ }
    split
    · exact kept.attempts
    · exact kept.attempts.insert _ truncateAttempt_truncated
  · exact kept

theorem completeFrom (now : Time) (newID : Nat → Text) (index : Nat) (results : List DeliveryResult) :
    RepoTruncated (completeFrom now newID index results repo) := by
  induction results generalizing repo index with
  | nil => exact kept
  | cons res rest ih => exact ih (kept.completeOne now (newID index) res) (index + 1)

theorem markSent (id owner messageID : Text) (time : Time) :
    RepoTruncated (repo.markSent id owner messageID time).2 := by
  unfold DeliveryRepo.markSent
  split
  · exact kept
  · split
    · exact kept
    · exact kept.modify id fun d => truncateDelivery_truncated

theorem markTerminal (id : Text) (status : DeliveryStatus) (time : Time) :
    RepoTruncated (repo.markTerminal id status time).2 := by
  unfold DeliveryRepo.markTerminal
  split
  · exact kept
  · split
    · exact kept
    · exact kept.modify id fun d => truncateDelivery_truncated

theorem setFirst (id : Text) (time : Time) (field : Field Delivery Time) :
    RepoTruncated (repo.setFirst id time field).2 := by
  unfold DeliveryRepo.setFirst
  split
  · exact kept
  · split
    · exact kept
    · exact kept.modify id fun d => truncateDelivery_truncated

theorem deleteDelivery (id : Text) : RepoTruncated (repo.deleteDelivery id) := by
  unfold DeliveryRepo.deleteDelivery
  split
  · exact kept
  · exact ⟨kept.deliveries.erase id, kept.attempts.eraseAll _⟩

theorem deleteAll (ids : List Text) : RepoTruncated (ids.foldl DeliveryRepo.deleteDelivery repo) := by
  induction ids generalizing repo with
  | nil => exact kept
  | cons id rest ih => exact ih (kept.deleteDelivery id)

theorem insertAttempts (now : Time) (newID : Nat → Text) (index : Nat) (attempts : List DeliveryAttempt) :
    RepoTruncated (insertAttempts now newID index attempts repo) := by
  induction attempts generalizing repo index with
  | nil => exact kept
  | cons a rest ih =>
      refine ih ?_ (index + 1)
      exact ⟨kept.deliveries, kept.attempts.insert _ truncateAttempt_truncated⟩

end

end RepoTruncated

theorem deleteBefore_truncated {α : Type} [Timestamped α] {rows : Table Text α} (all : All Truncated rows)
    (created : α → Time) (keep : α → Bool) : All Truncated (deleteBefore rows before limit created keep).2 :=
  all.eraseAll _

section

variable (truncated : StoreTruncated s)
include truncated

theorem bounceMailboxUpdateHealth_truncated (id : Text) : StoreTruncated (s.bounceMailboxUpdateHealth id h).2 := by
  refine { truncated with bounceMailboxes := ?_ }
  change All Truncated (updateColumn _ _ s.bounceMailboxes id).2
  unfold updateColumn
  split
  · exact truncated.bounceMailboxes
  · refine truncated.bounceMailboxes.modify id fun m whole => ?_
    simp_all [bounceMailboxHealth, truncateHealth]

theorem probeMailboxUpdateHealth_truncated (id : Text) : StoreTruncated (s.probeMailboxUpdateHealth id h).2 := by
  unfold probeMailboxUpdateHealth
  split
  · exact truncated
  · refine { truncated with probeMailboxes := truncated.probeMailboxes.modify id fun m whole => ?_ }
    simp_all [truncateHealth]

theorem chunkPut_truncated : StoreTruncated (s.chunkPut c).2 := by
  unfold chunkPut
  split
  · exact truncated
  · exact { truncated with chunks := truncated.chunks.insert _ (by simp) }

theorem suppressionUpsert_truncated : StoreTruncated (s.suppressionUpsert v).2 := by
  unfold suppressionUpsert
  split
  · exact truncated
  · exact { truncated with
      suppressions := truncated.suppressions.insert _
        (by simp [storedSuppression]) }

theorem suppressionDelete_truncated : StoreTruncated (s.suppressionDelete emailNorm).2 := by
  unfold suppressionDelete
  split
  · exact truncated
  · exact { truncated with suppressions := truncated.suppressions.erase emailNorm }

end

theorem insertEventsFrom_truncated {tracking : Table Text TrackingEvent} (all : All Truncated tracking)
    (tenant : Text) (now : Time) (index : Nat) :
    All Truncated (insertEventsFrom tenant now newID index evs tracking) := by
  induction evs generalizing tracking index with
  | nil => exact all
  | cons e rest ih =>
      refine ih (all.insert _ ?_) (index + 1)
      simp [insertedEvent]

variable {outbox : Table Text OutboxEvent}

theorem enqueueFrom_truncated (all : All Truncated outbox) (tenant : Text) (now : Time) (index : Nat) :
    All Truncated (enqueueFrom tenant now newID index evs outbox) := by
  induction evs generalizing outbox index with
  | nil => exact all
  | cons e rest ih =>
      refine ih (all.insert _ ?_) (index + 1)
      simp [enqueuedEvent]

theorem leaseEvent_truncated (now : Time) (whole : Truncated e) : Truncated (leaseEvent lease owner now e) := by
  simp_all [leaseEvent]

theorem resetEvent_truncated (now : Time) (whole : Truncated e) : Truncated (resetEvent now e) := by
  simp_all [resetEvent]

theorem deliveredEvent_truncated (whole : Truncated e) : Truncated (deliveredEvent time e) := by
  simp_all [deliveredEvent]

theorem failedEvent_truncated (nextAttempt : Time) (whole : Truncated e) :
    Truncated (failedEvent nextAttempt errMsg e) := by
  unfold failedEvent
  split <;> simp_all

theorem outboxChange_truncated (all : All Truncated outbox) (id : Text) {f : OutboxEvent → OutboxEvent}
    (kept : ∀ e, Truncated e → Truncated (f e)) : All Truncated (change id f outbox).2 := by
  unfold change
  split
  · exact all
  · exact all.modify id kept

variable {locks : Table Text Lock}

theorem lockAcquire_truncated (all : All Truncated locks) (tenant name owner : Text) (now : Time) :
    All Truncated (lockAcquire tenant name owner ttl now locks).2 := by
  unfold lockAcquire
  dsimp only
  split
  · exact all.insert name (by simp)
  next cur found =>
    split
    · exact all
    split
    · have whole := all name cur found
      refine all.insert name ?_
      simp_all
    · exact all.insert name (by simp)

theorem lockRenew_truncated (all : All Truncated locks) (now : Time) :
    All Truncated (lockRenew name owner ttl now locks).2 := by
  unfold lockRenew
  dsimp only
  split
  · exact all
  · split
    · exact all
    · refine all.modify name fun l whole => ?_
      simp_all

theorem lockRelease_truncated (all : All Truncated locks) : All Truncated (lockRelease name owner locks) := by
  unfold lockRelease
  split
  · exact all
  · split
    · exact all.erase name
    · exact all

section

variable (truncated : StoreTruncated s)
include truncated

theorem workerHeartbeat_truncated : StoreTruncated (s.workerHeartbeat w).2 := by
  unfold workerHeartbeat
  split
  · exact truncated
  · exact { truncated with workers := truncated.workers.insert _ (by simp) }

theorem settings_truncated_iff (created : truncateTime row.createdAt = row.createdAt)
    (updated : truncateTime row.updatedAt = row.updatedAt) : StoreTruncated { s with settings := some row } ↔
      ∀ time ∈ row.tracking.signingKeys.map SigningKey.createdAt, truncateTime time = time := by
  have split : Truncated row ↔ ∀ time ∈ row.tracking.signingKeys.map SigningKey.createdAt, truncateTime time = time := by
    simp [created, updated]
  rw [← split]
  constructor
  · intro after
    exact after.settings row rfl
  · intro whole
    refine { truncated with settings := fun other stored => ?_ }
    cases stored
    exact whole

theorem settingsCreate_truncated_iff (accepted : (RepoCall.apply s (.settingsCreate v)).1 = true) :
    StoreTruncated (RepoCall.apply s (.settingsCreate v)).2 ↔ RepoCall.Whole (.settingsCreate v) := by
  simp only [RepoCall.apply] at accepted ⊢
  unfold settingsCreate at accepted ⊢
  cases present : s.settings with
  | some cur =>
      rw [present] at accepted
      cases accepted
  | none => exact settings_truncated_iff truncated (by simp) (by simp)

theorem settingsUpdate_truncated_iff (accepted : (RepoCall.apply s (.settingsUpdate v)).1 = true) :
    StoreTruncated (RepoCall.apply s (.settingsUpdate v)).2 ↔ RepoCall.Whole (.settingsUpdate v) := by
  simp only [RepoCall.apply] at accepted ⊢
  unfold settingsUpdate at accepted ⊢
  cases present : s.settings with
  | none =>
      rw [present] at accepted
      cases accepted
  | some cur =>
      rw [present] at accepted
      dsimp only at accepted ⊢
      split at accepted
      · cases accepted
      next current =>
        rw [if_neg current]
        exact settings_truncated_iff truncated (by simp) (by simp)

theorem campaignUpdateStats_truncated_iff {id : Text}
    (accepted : (RepoCall.apply s (.campaignUpdateStats id stats)).1 = true) :
    StoreTruncated (RepoCall.apply s (.campaignUpdateStats id stats)).2 ↔
      RepoCall.Whole (.campaignUpdateStats id stats) := by
  simp only [RepoCall.apply, outcome] at accepted ⊢
  unfold campaignUpdateStats at accepted ⊢
  cases found : s.campaigns[id]? with
  | none =>
      rw [found] at accepted
      cases accepted
  | some c =>
      constructor
      · intro after
        have whole := after.campaigns id { c with stats, updatedAt := s.now } (by simp [found])
        intro time listed
        rw [List.mem_singleton.mp listed]
        exact whole _ (by simp)
      · intro whole
        refine { truncated with campaigns := truncated.campaigns.modify id fun cur stored => ?_ }
        have computed := whole _ (List.mem_singleton_self _)
        simp_all [now]

end

/-- A call that truncates every time it brings, whatever the aggregate. -/
def RepoCall.truncates : RepoCall → Bool
  | .create .. | .update .. | .campaignUpdateStats .. | .settingsCreate _ | .settingsUpdate _ => false
  | _ => true

variable {call : RepoCall}

theorem apply_truncated (truncated : StoreTruncated s) (truncates : call.truncates = true) :
    StoreTruncated (call.apply s).2 := by
  cases call with
  | create | update | campaignUpdateStats | settingsCreate | settingsUpdate => cases truncates
  | delete kind id => exact delete_truncated truncated id
  | bounceMailboxUpdateHealth id h => exact bounceMailboxUpdateHealth_truncated truncated id
  | probeMailboxUpdateHealth id h => exact probeMailboxUpdateHealth_truncated truncated id
  | chunkPut c => exact chunkPut_truncated truncated
  | suppressionUpsert v => exact suppressionUpsert_truncated truncated
  | suppressionDelete emailNorm => exact suppressionDelete_truncated truncated
  | suppressionDeleteBefore before limit =>
      exact { truncated with suppressions := truncated.suppressions.eraseAll _ }
  | bounceDeleteBefore before limit =>
      exact { truncated with bounces := deleteBefore_truncated truncated.bounces _ _ }
  | trackingInsertEvents newID evs =>
      exact { truncated with tracking := insertEventsFrom_truncated truncated.tracking _ _ 0 }
  | trackingDeleteBefore before limit =>
      exact { truncated with tracking := deleteBefore_truncated truncated.tracking _ _ }
  | outboxEnqueue newID evs =>
      exact { truncated with outbox := enqueueFrom_truncated truncated.outbox _ _ 0 }
  | outboxClaimPending limit lease owner now =>
      exact { truncated with outbox := truncated.outbox.updateAll _ fun _ => leaseEvent_truncated _ }
  | outboxReset id now =>
      exact { truncated with outbox := outboxChange_truncated truncated.outbox id fun _ => resetEvent_truncated now }
  | outboxMarkDelivered id time =>
      exact { truncated with
        outbox := outboxChange_truncated truncated.outbox id fun _ => deliveredEvent_truncated }
  | outboxMarkFailed id nextAttempt errMsg =>
      exact { truncated with
        outbox := outboxChange_truncated truncated.outbox id fun _ => failedEvent_truncated nextAttempt }
  | outboxDeleteBefore before limit =>
      exact { truncated with outbox := deleteBefore_truncated truncated.outbox _ _ }
  | lockAcquire name owner ttl now =>
      exact { truncated with locks := lockAcquire_truncated truncated.locks s.tenant name owner now }
  | lockRenew name owner ttl now =>
      exact { truncated with locks := lockRenew_truncated truncated.locks now }
  | lockRelease name owner => exact { truncated with locks := lockRelease_truncated truncated.locks }
  | workerHeartbeat w => exact workerHeartbeat_truncated truncated
  | deliveryInsertBatch newID ds => exact truncated.setRepo (truncated.repo.insertBatch s.clock newID ds)
  | deliveryClaim | deliveryReleaseExpiredLeases | deliveryBulkTransition | deliveryRequeue =>
      exact truncated.setRepo (truncated.repo.updateAll _ fun _ => truncateDelivery_truncated)
  | deliveryComplete newID results => exact truncated.setRepo (truncated.repo.completeFrom _ newID 0 results)
  | deliveryMarkSent id owner messageID time =>
      exact truncated.setRepo (truncated.repo.markSent id owner messageID time)
  | deliveryMarkBounced id time => exact truncated.setRepo (truncated.repo.markTerminal id .bounced time)
  | deliveryMarkComplained id time => exact truncated.setRepo (truncated.repo.markTerminal id .complained time)
  | deliverySetFirstOpened id time => exact truncated.setRepo (truncated.repo.setFirst id time firstOpenedAt)
  | deliverySetFirstClicked id time => exact truncated.setRepo (truncated.repo.setFirst id time firstClickedAt)
  | deliverySetUnsubscribed id time => exact truncated.setRepo (truncated.repo.setFirst id time unsubscribedAt)
  | deliveryDeleteBefore campaignID before limit => exact truncated.setRepo (truncated.repo.deleteAll _)
  | attemptInsert newID attempts => exact truncated.setRepo (truncated.repo.insertAttempts s.now newID 0 attempts)

theorem apply_truncated_iff (truncated : StoreTruncated s) (accepted : (call.apply s).1 = true) :
    StoreTruncated (call.apply s).2 ↔ call.Whole := by
  cases call with
  | create kind newID v => exact create_truncated_iff truncated accepted
  | update kind v => exact update_truncated_iff truncated accepted
  | campaignUpdateStats id stats => exact campaignUpdateStats_truncated_iff truncated accepted
  | settingsCreate v => exact settingsCreate_truncated_iff truncated accepted
  | settingsUpdate v => exact settingsUpdate_truncated_iff truncated accepted
  | _ => exact iff_of_true (apply_truncated truncated rfl) (List.forall_mem_nil _)

inductive RepoEvent where
  | call (tenantID : Text) (call : RepoCall)
  | tick (clock : Time)

/-- A call that succeeds brings whole milliseconds. -/
def RepoEvent.Whole (tenants : Text → TenantStore) : RepoEvent → Prop
  | .call tenantID made => (made.apply (tenants tenantID)).1 = true → made.Whole
  | .tick _ => True

def repoCalls : System (Text → TenantStore) RepoEvent where
  step tenants
    | .call tenantID call => some (Function.update tenants tenantID (call.apply (tenants tenantID)).2)
    | .tick clock => some fun tenantID => { tenants tenantID with clock }

def noTenants (tenantID : Text) : TenantStore :=
  { tenant := tenantID }

theorem truncated_of_reaches (reached : repoCalls.Reaches RepoEvent.Whole noTenants tenants) (tenantID : Text) :
    StoreTruncated (tenants tenantID) := by
  revert tenantID
  apply reached.invariant
  · exact fun tenantID => storeTruncated_empty tenantID
  · intro before event after truncated whole stepped tenantID
    cases event with
    | tick clock =>
        cases stepped
        exact { truncated tenantID with }
    | call caller call =>
        cases stepped
        by_cases same : tenantID = caller
        · subst same
          rw [Function.update_self]
          cases accepted : (call.apply (before tenantID)).1 with
          | true => exact (apply_truncated_iff (truncated tenantID) accepted).mpr (whole accepted)
          | false =>
              rw [apply_refused accepted]
              exact truncated tenantID
        · rw [Function.update_of_ne same]
          exact truncated tenantID

/-- In every run whose successful calls bring whole milliseconds for the times that
are not truncated, every stored time is in whole milliseconds; and a call that
succeeds keeps it so exactly if it brings them. -/
theorem times_truncated_iff_whole {tenants : Text → TenantStore}
    (reached : repoCalls.Reaches RepoEvent.Whole noTenants tenants) (tenantID : Text) :
    StoreTruncated (tenants tenantID) ∧ ∀ call : RepoCall, (call.apply (tenants tenantID)).1 = true →
        (StoreTruncated (call.apply (tenants tenantID)).2 ↔ call.Whole) :=
  ⟨truncated_of_reaches reached tenantID, fun _ accepted =>
    apply_truncated_iff (truncated_of_reaches reached tenantID) accepted⟩

def coolingTransport (statusUntil : Time) : Transport where
  id := text "t1"
  status := .cooldown
  statusChangedAt := 1000000000
  statusUntil

theorem cooldown_in_whole_milliseconds :
    RepoCall.Whole (.create .transport [] (coolingTransport 2000000000)) ∧
      StoreTruncated (RepoCall.apply (noTenants (text "acme"))
        (.create .transport [] (coolingTransport 2000000000))).2 := by
  have whole : RepoCall.Whole (.create .transport [] (coolingTransport 2000000000)) := by
    intro time brought
    rw [List.mem_singleton.mp brought]
    decide
  refine ⟨whole, ?_⟩
  have accepted : (RepoCall.apply (noTenants (text "acme"))
      (.create .transport [] (coolingTransport 2000000000))).1 = true := by decide +kernel
  exact ((times_truncated_iff_whole .refl (text "acme")).2 _ accepted).mpr whole

/-- The end of a cooldown and the age of statistics are stored to the
nanosecond, while the start of the cooldown is not. -/
theorem cooldown_in_nanoseconds :
    ((RepoCall.apply (noTenants (text "acme")) (.create .transport []
        { coolingTransport 2000000001 with statusChangedAt := 1000000001 })).2.transports[text "t1"]?.map
          fun t => (t.statusChangedAt, t.statusUntil)) = some (1000000000, 2000000001) ∧
      (((RepoCall.apply (noTenants (text "acme")) (.create .campaign []
        { id := text "c1", stats := { computedAt := 2000000001 } })).2.campaigns[text "c1"]?.map
          fun c => c.stats.computedAt) = some 2000000001) ∧
      truncateTime 2000000001 ≠ 2000000001 := by
  decide +kernel

end Sendplane.Memstore
