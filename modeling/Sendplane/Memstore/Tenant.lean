import Sendplane.Memstore.DeliveryRows
import Sendplane.Memstore.Table
import Sendplane.Store.Records
import Sendplane.Store.Settings

namespace Sendplane.Memstore

open Data Store

structure TenantStore extends DeliveryRepo where
  clock : Time := 0
  settings : Option TenantSettings := none
  campaigns : Table Text Campaign := ∅
  senders : Table Text Sender := ∅
  templates : Table Text Template := ∅
  chunks : Table Text RecipientChunk := ∅
  outbox : Table Text OutboxEvent := ∅
  tracking : Table Text TrackingEvent := ∅
  probeMailboxes : Table Text ProbeMailbox := ∅
  probeRuns : Table Text ProbeRun := ∅
  transports : Table Text Transport := ∅
  domains : Table Text SendingDomain := ∅
  versions : Table Text MessageVersion := ∅
  bounces : Table Text BounceEvent := ∅
  suppressions : Table Text Suppression := ∅
  bounceMailboxes : Table Text BounceMailbox := ∅
  layouts : Table Text Layout := ∅
  locks : Table Text Lock := ∅
  workers : Table Text Worker := ∅

def campaignMeta : Meta Campaign where
  id := ⟨Campaign.id, fun c id => { c with id }⟩
  tenant := ⟨Campaign.tenantID, fun c tenantID => { c with tenantID }⟩
  version := some ⟨Campaign.version, fun c version => { c with version }⟩
  created := ⟨Campaign.createdAt, fun c createdAt => { c with createdAt }⟩
  updated := some ⟨Campaign.updatedAt, fun c updatedAt => { c with updatedAt }⟩
  truncateRow c := { c with
    createdAt := truncateTime c.createdAt
    updatedAt := truncateTime c.updatedAt
    scheduleAt := truncateTime c.scheduleAt
    startedAt := truncateTime c.startedAt
    completedAt := truncateTime c.completedAt }

namespace TenantStore

def now (s : TenantStore) : Time :=
  truncateTime s.clock

def passTime (clock : Time) (s : TenantStore) : Except Err Unit × TenantStore :=
  (.ok (), { s with clock })

def campaignGet (id : Text) (s : TenantStore) : Except Err Campaign :=
  find s.campaigns id

def campaignUpdate (c : Campaign) (s : TenantStore) : Except Err Campaign × TenantStore :=
  let (reply, campaigns) := update campaignMeta s.tenant s.now s.campaigns c
  (reply, { s with campaigns })

def campaignListByStatus (statuses : List CampaignStatus) (page : Page) (s : TenantStore) :
    Except Err (Result Campaign) :=
  .ok (paginate s.campaigns page fun c => statuses.contains c.status)

/-- Takes no part in optimistic concurrency: the version stays. -/
def campaignUpdateStats (id : Text) (stats : CampaignStats) (s : TenantStore) :
    Except Err Unit × TenantStore :=
  match s.campaigns[id]? with
  | none => (.error (.wrap .notFound (text "campaign " ++ id)), s)
  | some _ =>
      (.ok (), { s with
        campaigns := s.campaigns.modify id fun c => { c with stats, updatedAt := s.now } })

def senderGet (id : Text) (s : TenantStore) : Except Err Sender :=
  find s.senders id

def templateGet (id : Text) (s : TenantStore) : Except Err Template :=
  find s.templates id

def deliveryCountByStatus (campaignID : Text) (s : TenantStore) : Except Err StatusCounts :=
  .ok fun status => s.countByStatus campaignID status

def deliveryInsertBatch (newID : Nat → Text) (ds : List Delivery) (s : TenantStore) :
    Except Err Nat × TenantStore :=
  let (reply, repo) := s.insertBatch s.clock newID ds
  (reply, { s with toDeliveryRepo := repo })

def deliveryClaim (req : ClaimRequest) (s : TenantStore) : Except Err (List Delivery) × TenantStore :=
  let (rows, repo) := s.claim req
  (.ok rows, { s with toDeliveryRepo := repo })

def deliveryComplete (newID : Nat → Text) (results : List DeliveryResult) (s : TenantStore) :
    Except Err Unit × TenantStore :=
  (.ok (), { s with toDeliveryRepo := s.complete s.clock newID results })

def deliveryMarkSent (id owner messageID : Text) (time : Time) (s : TenantStore) :
    Except Err Unit × TenantStore :=
  let (reply, repo) := s.markSent id owner messageID time
  (reply, { s with toDeliveryRepo := repo })

def deliveryMarkBounced (id : Text) (time : Time) (s : TenantStore) : Except Err Bool × TenantStore :=
  let (changed, repo) := s.markBounced id time
  (.ok changed, { s with toDeliveryRepo := repo })

def deliveryReleaseExpiredLeases (now : Time) (limit : Int) (s : TenantStore) :
    Except Err Nat × TenantStore :=
  let (released, repo) := s.releaseExpiredLeases now limit
  (.ok released, { s with toDeliveryRepo := repo })

def deliveryRequeue (f : RetryFilter) (limit : Int) (s : TenantStore) : Except Err Nat × TenantStore :=
  let (moved, repo) := s.requeue f limit
  (.ok moved, { s with toDeliveryRepo := repo })

def chunkKey (campaignID key : Text) : Text :=
  campaignID ++ 0 :: key

def chunkGet (campaignID key : Text) (s : TenantStore) : Except Err RecipientChunk :=
  match s.chunks[chunkKey campaignID key]? with
  | none => .error (.wrap .notFound (text "chunk " ++ campaignID ++ text "/" ++ key))
  | some c => .ok c

def chunkPut (c : RecipientChunk) (s : TenantStore) : Except Err Unit × TenantStore :=
  if c.campaignID = [] ∨ c.key = [] then
    (.error (.wrap .invalid (text "chunk needs a campaign and a key")), s)
  else
    let createdAt := match s.chunks[chunkKey c.campaignID c.key]? with
      | some prev => prev.createdAt
      | none => if c.createdAt = 0 then s.now else c.createdAt
    let stored := { c with
      tenantID := s.tenant
      createdAt := truncateTime createdAt
      updatedAt := truncateTime s.now }
    (.ok (), { s with chunks := s.chunks.insert (chunkKey c.campaignID c.key) stored })

def enqueuedEvent (tenant : Text) (now : Time) (newID : Text) (e : OutboxEvent) : OutboxEvent :=
  let createdAt := if e.createdAt = 0 then now else e.createdAt
  let nextAttemptAt := if e.nextAttemptAt = 0 then createdAt else e.nextAttemptAt
  { e with
    id := if e.id = [] then newID else e.id
    tenantID := tenant
    status := .pending
    createdAt := truncateTime createdAt
    nextAttemptAt := truncateTime nextAttemptAt
    leaseUntil := truncateTime e.leaseUntil
    deliveredAt := truncateTime e.deliveredAt }

def enqueueFrom (tenant : Text) (now : Time) (newID : Nat → Text) :
    Nat → List OutboxEvent → Table Text OutboxEvent → Table Text OutboxEvent
  | _, [], outbox => outbox
  | index, e :: rest, outbox =>
      let e := enqueuedEvent tenant now (newID index) e
      enqueueFrom tenant now newID (index + 1) rest (outbox.insert e.id e)

def outboxEnqueue (newID : Nat → Text) (evs : List OutboxEvent) (s : TenantStore) :
    Except Err Unit × TenantStore :=
  (.ok (), { s with outbox := enqueueFrom s.tenant s.now newID 0 evs s.outbox })

/-- How many deliveries of the campaign had an interaction of the kind, bots
excluded. -/
def uniqueDeliveries (s : TenantStore) (campaignID : Text) (kind : TrackingKind) : Nat :=
  ((s.tracking.toList.filter fun entry =>
    entry.2.campaignID = campaignID && !entry.2.suspectedBot && entry.2.kind = kind).map
      fun entry => entry.2.deliveryID).dedup.length

def trackingCountUnique (campaignID : Text) (s : TenantStore) : Except Err TrackingCounts :=
  .ok {
    uniqueOpens := s.uniqueDeliveries campaignID .opened
    uniqueClicks := s.uniqueDeliveries campaignID .click
    unsubscribeClicked := s.uniqueDeliveries campaignID .unsubscribeClicked
    unsubscribed := s.uniqueDeliveries campaignID .unsubscribed }

variable {s : TenantStore} {c : Campaign}

def updatedCampaign (s : TenantStore) (cur c : Campaign) : Campaign :=
  campaignMeta.truncateRow (updatedRow campaignMeta s.tenant s.now cur c)

theorem campaignUpdate_cases (s : TenantStore) : (∃ failure, s.campaignUpdate c = (.error failure, s)) ∨
      ∃ cur, s.campaigns[c.id]? = some cur ∧ cur.version = c.version ∧
        s.campaignUpdate c = (.ok (updatedRow campaignMeta s.tenant s.now cur c),
          { s with campaigns := s.campaigns.insert c.id (s.updatedCampaign cur c) }) := by
  rcases update_cases campaignMeta s.tenant s.now s.campaigns c with ⟨failure, failed⟩ | ⟨cur, stored, current, updated⟩
  · exact .inl ⟨failure, by rw [campaignUpdate, failed]⟩
  · exact .inr ⟨cur, stored, Option.some.inj current, by rw [campaignUpdate, updated]; rfl⟩

theorem campaignUpdate_ok (stored : s.campaigns[c.id]? = some cur) (current : cur.version = c.version) :
    s.campaignUpdate c = (.ok (updatedRow campaignMeta s.tenant s.now cur c),
      { s with campaigns := s.campaigns.insert c.id (s.updatedCampaign cur c) }) := by
  have found : s.campaigns[campaignMeta.id.get c]? = some cur := stored
  have same : versionOf campaignMeta cur = versionOf campaignMeta c := congrArg some current
  simp only [campaignUpdate, update, found, same, ne_eq, not_true_eq_false, ↓reduceIte]
  rfl

theorem campaignUpdateStats_changes (id : Text) (stats : CampaignStats) :
    Table.Changes (fun _ old new => new = { old with stats, updatedAt := s.now })
      s.campaigns (s.campaignUpdateStats id stats).2.campaigns := by
  unfold campaignUpdateStats
  cases s.campaigns[id]? with
  | none => exact .refl _
  | some _ => exact Table.changes_modify.imp fun _ _ _ _ changed => changed.2

end TenantStore

end Sendplane.Memstore
