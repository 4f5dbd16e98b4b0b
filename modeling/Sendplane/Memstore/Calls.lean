import Sendplane.Memstore.Aggregates
import Sendplane.Memstore.Upkeep

namespace Sendplane.Memstore

open Data Store TenantStore

inductive RowKind where
  | transport | sender | domain | bounceMailbox | probeMailbox | layout | template | probeRun | version | campaign
  | bounce
deriving DecidableEq

namespace RowKind

abbrev Row : RowKind → Type
  | transport => Transport
  | sender => Sender
  | domain => SendingDomain
  | bounceMailbox => BounceMailbox
  | probeMailbox => ProbeMailbox
  | layout => Layout
  | template => Template
  | probeRun => ProbeRun
  | version => MessageVersion
  | campaign => Campaign
  | bounce => BounceEvent

def repo : (kind : RowKind) → TableRepo kind.Row
  | transport => TenantStore.transportRepo
  | sender => TenantStore.senderRepo
  | domain => TenantStore.domainRepo
  | bounceMailbox => TenantStore.bounceMailboxRepo
  | probeMailbox => TenantStore.probeMailboxRepo
  | layout => TenantStore.layoutRepo
  | template => TenantStore.templateRepo
  | probeRun => TenantStore.probeRunRepo
  | version => TenantStore.versionRepo
  | campaign => TenantStore.campaignRepo
  | bounce => TenantStore.bounceRepo

end RowKind

/-- The calls that write.  The IDs a call generates are numbered by `newID`. -/
inductive RepoCall where
  | create (kind : RowKind) (newID : Text) (v : kind.Row)
  | update (kind : RowKind) (v : kind.Row)
  | delete (kind : RowKind) (id : Text)
  | bounceMailboxUpdateHealth (id : Text) (h : MailboxHealth)
  | probeMailboxUpdateHealth (id : Text) (h : MailboxHealth)
  | campaignUpdateStats (id : Text) (stats : CampaignStats)
  | settingsCreate (v : TenantSettings)
  | settingsUpdate (v : TenantSettings)
  | chunkPut (c : RecipientChunk)
  | suppressionUpsert (v : Suppression)
  | suppressionDelete (emailNorm : Text)
  | suppressionDeleteBefore (before : Time) (limit : Int)
  | bounceDeleteBefore (before : Time) (limit : Int)
  | trackingInsertEvents (newID : Nat → Text) (evs : List TrackingEvent)
  | trackingDeleteBefore (before : Time) (limit : Int)
  | outboxEnqueue (newID : Nat → Text) (evs : List OutboxEvent)
  | outboxClaimPending (limit : Int) (lease : Duration) (owner : Text) (now : Time)
  | outboxReset (id : Text) (now : Time)
  | outboxMarkDelivered (id : Text) (time : Time)
  | outboxMarkFailed (id : Text) (nextAttempt : Time) (errMsg : Text)
  | outboxDeleteBefore (before : Time) (limit : Int)
  | lockAcquire (name owner : Text) (ttl : Duration) (now : Time)
  | lockRenew (name owner : Text) (ttl : Duration) (now : Time)
  | lockRelease (name owner : Text)
  | workerHeartbeat (w : Worker)
  | deliveryInsertBatch (newID : Nat → Text) (ds : List Delivery)
  | deliveryClaim (req : ClaimRequest)
  | deliveryComplete (newID : Nat → Text) (results : List DeliveryResult)
  | deliveryMarkSent (id owner messageID : Text) (time : Time)
  | deliveryMarkBounced (id : Text) (time : Time)
  | deliveryMarkComplained (id : Text) (time : Time)
  | deliveryReleaseExpiredLeases (now : Time) (limit : Int)
  | deliveryBulkTransition (campaignID : Text) (source : List DeliveryStatus) (target : DeliveryStatus) (limit : Int)
  | deliveryRequeue (f : RetryFilter) (limit : Int)
  | deliverySetFirstOpened (id : Text) (time : Time)
  | deliverySetFirstClicked (id : Text) (time : Time)
  | deliverySetUnsubscribed (id : Text) (time : Time)
  | deliveryDeleteBefore (campaignID : Text) (before : Time) (limit : Int)
  | attemptInsert (newID : Nat → Text) (attempts : List DeliveryAttempt)

def outcome {β : Type} (result : Except Err β × TenantStore) : Bool × TenantStore :=
  (result.1.isOk, result.2)

def RepoCall.apply (s : TenantStore) : RepoCall → Bool × TenantStore
  | .create kind newID v => outcome (kind.repo.create newID v s)
  | .update kind v => outcome (kind.repo.update v s)
  | .delete kind id => outcome (kind.repo.delete id s)
  | .bounceMailboxUpdateHealth id h => outcome (s.bounceMailboxUpdateHealth id h)
  | .probeMailboxUpdateHealth id h => outcome (s.probeMailboxUpdateHealth id h)
  | .campaignUpdateStats id stats => outcome (s.campaignUpdateStats id stats)
  | .settingsCreate v => outcome (s.settingsCreate v)
  | .settingsUpdate v => outcome (s.settingsUpdate v)
  | .chunkPut c => outcome (s.chunkPut c)
  | .suppressionUpsert v => outcome (s.suppressionUpsert v)
  | .suppressionDelete emailNorm => outcome (s.suppressionDelete emailNorm)
  | .suppressionDeleteBefore before limit => outcome (s.suppressionDeleteBefore before limit)
  | .bounceDeleteBefore before limit => outcome (s.bounceDeleteBefore before limit)
  | .trackingInsertEvents newID evs => outcome (s.trackingInsertEvents newID evs)
  | .trackingDeleteBefore before limit => outcome (s.trackingDeleteBefore before limit)
  | .outboxEnqueue newID evs => outcome (s.outboxEnqueue newID evs)
  | .outboxClaimPending limit lease owner now => outcome (s.outboxClaimPending limit lease owner now)
  | .outboxReset id now => outcome (s.outboxReset id now)
  | .outboxMarkDelivered id time => outcome (s.outboxMarkDelivered id time)
  | .outboxMarkFailed id nextAttempt errMsg => outcome (s.outboxMarkFailed id nextAttempt errMsg)
  | .outboxDeleteBefore before limit => outcome (s.outboxDeleteBefore before limit)
  | .lockAcquire name owner ttl now => outcome (s.lockAcquire name owner ttl now)
  | .lockRenew name owner ttl now => outcome (s.lockRenew name owner ttl now)
  | .lockRelease name owner => outcome (s.lockRelease name owner)
  | .workerHeartbeat w => outcome (s.workerHeartbeat w)
  | .deliveryInsertBatch newID ds => outcome (s.deliveryInsertBatch newID ds)
  | .deliveryClaim req => outcome (s.deliveryClaim req)
  | .deliveryComplete newID results => outcome (s.deliveryComplete newID results)
  | .deliveryMarkSent id owner messageID time => outcome (s.deliveryMarkSent id owner messageID time)
  | .deliveryMarkBounced id time => outcome (s.deliveryMarkBounced id time)
  | .deliveryMarkComplained id time => outcome (s.deliveryMarkComplained id time)
  | .deliveryReleaseExpiredLeases now limit => outcome (s.deliveryReleaseExpiredLeases now limit)
  | .deliveryBulkTransition campaignID source target limit =>
      outcome (s.deliveryBulkTransition campaignID source target limit)
  | .deliveryRequeue f limit => outcome (s.deliveryRequeue f limit)
  | .deliverySetFirstOpened id time => outcome (s.deliverySetFirstOpened id time)
  | .deliverySetFirstClicked id time => outcome (s.deliverySetFirstClicked id time)
  | .deliverySetUnsubscribed id time => outcome (s.deliverySetUnsubscribed id time)
  | .deliveryDeleteBefore campaignID before limit => outcome (s.deliveryDeleteBefore campaignID before limit)
  | .attemptInsert newID attempts => outcome (s.attemptInsert newID attempts)

theorem apply_refused {call : RepoCall} (refused : (call.apply s).1 = false) : (call.apply s).2 = s := by
  cases call with
  | create => exact TableRepo.create_refused refused
  | update => exact TableRepo.update_refused refused
  | delete => exact TableRepo.delete_refused refused
  | bounceMailboxUpdateHealth | probeMailboxUpdateHealth | campaignUpdateStats | settingsCreate | settingsUpdate
  | chunkPut | suppressionUpsert | suppressionDelete | outboxReset | outboxMarkDelivered | outboxMarkFailed
  | workerHeartbeat | deliveryInsertBatch | deliveryMarkSent =>
      -- Each of them looks first, and writes only where it answers with success.
      revert refused
      simp only [RepoCall.apply, bounceMailboxUpdateHealth, Column.update, updateColumn,
        probeMailboxUpdateHealth, campaignUpdateStats, settingsCreate,
        settingsUpdate, chunkPut, suppressionUpsert, suppressionDelete,
        outboxReset, outboxMarkDelivered, outboxMarkFailed, Outbox.reset,
        Outbox.markDelivered, Outbox.markFailed, Outbox.change, workerHeartbeat,
        deliveryInsertBatch, DeliveryRepo.insertBatch, deliveryMarkSent, DeliveryRepo.markSent]
      repeat' split
      all_goals first
        | exact fun _ => rfl
        | exact fun refused => by cases refused
  | suppressionDeleteBefore | bounceDeleteBefore | trackingInsertEvents | trackingDeleteBefore | outboxEnqueue
  | outboxClaimPending | outboxDeleteBefore | lockAcquire | lockRenew | lockRelease | deliveryClaim
  | deliveryComplete | deliveryMarkBounced | deliveryMarkComplained | deliveryReleaseExpiredLeases
  | deliveryBulkTransition | deliveryRequeue | deliverySetFirstOpened | deliverySetFirstClicked
  | deliverySetUnsubscribed | deliveryDeleteBefore | attemptInsert => cases refused

end Sendplane.Memstore
