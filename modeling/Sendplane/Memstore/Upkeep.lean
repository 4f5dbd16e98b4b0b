import Sendplane.Memstore.Columns
import Sendplane.Memstore.Lock
import Sendplane.Memstore.Outbox
import Sendplane.Memstore.Settings

namespace Sendplane.Memstore

open Data Store

namespace DeliveryRepo

def setFirstRow (field : Field Delivery Time) (time : Time) (d : Delivery) : Delivery :=
  truncateDelivery { field.set d time with updatedAt := time }

def setFirst (repo : DeliveryRepo) (id : Text) (time : Time) (field : Field Delivery Time) : Bool × DeliveryRepo :=
  match repo.deliveries[id]? with
  | none => (false, repo)
  | some d =>
      if field.get d ≠ 0 then (false, repo)
      else (true, { repo with deliveries := repo.deliveries.modify id (setFirstRow field time) })

/-- A delivery goes with its attempts and its place in the unique index. -/
def deleteDelivery (repo : DeliveryRepo) (id : Text) : DeliveryRepo :=
  match repo.deliveries[id]? with
  | none => repo
  | some d =>
      { repo with
        campaignEmails := if d.campaignID ≠ [] then repo.campaignEmails.erase (emailKey d.campaignID d.emailNorm)
          else repo.campaignEmails
        deliveries := repo.deliveries.erase id
        attempts := repo.attempts.eraseAll (repo.attempts.keysWhere fun _ a => a.deliveryID = id) }

def deleteBefore (repo : DeliveryRepo) (campaignID : Text) (before : Time) (limit : Int) : Nat × DeliveryRepo :=
  let before := truncateTime before
  let ids := takeLimit limit
    (repo.deliveries.keysWhere fun _ d => d.campaignID = campaignID && d.createdAt < before)
  (ids.length, ids.foldl deleteDelivery repo)

def insertAttempts (now : Time) (newID : Nat → Text) : Nat → List DeliveryAttempt → DeliveryRepo → DeliveryRepo
  | _, [], repo => repo
  | index, a :: rest, repo =>
      let a := stampAttempt repo.tenant now (newID index) a.deliveryID a
      insertAttempts now newID (index + 1) rest { repo with attempts := repo.attempts.insert a.id a }

end DeliveryRepo

def firstOpenedAt : Field Delivery Time := ⟨Delivery.firstOpenedAt, fun d firstOpenedAt => { d with firstOpenedAt }⟩
def firstClickedAt : Field Delivery Time := ⟨Delivery.firstClickedAt, fun d firstClickedAt => { d with firstClickedAt }⟩
def unsubscribedAt : Field Delivery Time := ⟨Delivery.unsubscribedAt, fun d unsubscribedAt => { d with unsubscribedAt }⟩

namespace TenantStore

def deliveryBulkTransition (campaignID : Text) (source : List DeliveryStatus) (target : DeliveryStatus) (limit : Int)
    (s : TenantStore) : Except Err Nat × TenantStore :=
  let (moved, repo) := s.bulkTransition s.clock campaignID source target limit
  (.ok moved, { s with toDeliveryRepo := repo })

def deliverySetFirst (field : Field Delivery Time) (id : Text) (time : Time) (s : TenantStore) :
    Except Err Bool × TenantStore :=
  let (written, repo) := s.setFirst id time field
  (.ok written, { s with toDeliveryRepo := repo })

def deliverySetFirstOpened : Text → Time → TenantStore → Except Err Bool × TenantStore :=
  deliverySetFirst firstOpenedAt

def deliverySetFirstClicked : Text → Time → TenantStore → Except Err Bool × TenantStore :=
  deliverySetFirst firstClickedAt

def deliverySetUnsubscribed : Text → Time → TenantStore → Except Err Bool × TenantStore :=
  deliverySetFirst unsubscribedAt

def deliveryDeleteBefore (campaignID : Text) (before : Time) (limit : Int) (s : TenantStore) :
    Except Err Nat × TenantStore :=
  let (deleted, repo) := s.toDeliveryRepo.deleteBefore campaignID before limit
  (.ok deleted, { s with toDeliveryRepo := repo })

def attemptInsert (newID : Nat → Text) (attempts : List DeliveryAttempt) (s : TenantStore) :
    Except Err Unit × TenantStore :=
  (.ok (), { s with toDeliveryRepo := DeliveryRepo.insertAttempts s.now newID 0 attempts s.toDeliveryRepo })

def settingsUpdate (v : TenantSettings) (s : TenantStore) : Except Err TenantSettings × TenantStore :=
  match s.settings with
  | none => (.error (.wrap .notFound (text "tenant settings")), s)
  | some cur =>
      if cur.version ≠ v.version then
        (.error (.wrap .conflict (text "tenant settings version " ++ text (toString cur.version) ++
          text ", have " ++ text (toString v.version))), s)
      else
        let v := { v with
          tenantID := s.tenant, createdAt := cur.createdAt, updatedAt := s.now, version := cur.version + 1 }
        let stored := { v with createdAt := truncateTime v.createdAt, updatedAt := truncateTime v.updatedAt }
        (.ok v, { s with settings := some stored })

def suppressionDelete (emailNorm : Text) (s : TenantStore) : Except Err Unit × TenantStore :=
  match s.suppressions[emailNorm]? with
  | none => (.error (.wrap .notFound (text "suppression " ++ emailNorm)), s)
  | some _ => (.ok (), { s with suppressions := s.suppressions.erase emailNorm })

/-- Only what has expired goes; an entry without an end stays. -/
def suppressionDeleteBefore (before : Time) (limit : Int) (s : TenantStore) : Except Err Nat × TenantStore :=
  let before := truncateTime before
  let keys := takeLimit limit
    (s.suppressions.keysWhere fun _ v => v.expiresAt ≠ 0 && v.expiresAt ≤ before)
  (.ok keys.length, { s with suppressions := s.suppressions.eraseAll keys })

def bounceDeleteBefore (before : Time) (limit : Int) (s : TenantStore) : Except Err Nat × TenantStore :=
  let (deleted, bounces) := deleteBefore s.bounces (truncateTime before) limit BounceEvent.createdAt fun _ => true
  (.ok deleted, { s with bounces })

def insertedEvent (tenant : Text) (now : Time) (newID : Text) (e : TrackingEvent) : TrackingEvent :=
  { e with
    id := if e.id = [] then newID else e.id
    tenantID := tenant
    createdAt := truncateTime (if e.createdAt = 0 then now else e.createdAt) }

def insertEventsFrom (tenant : Text) (now : Time) (newID : Nat → Text) :
    Nat → List TrackingEvent → Table Text TrackingEvent → Table Text TrackingEvent
  | _, [], tracking => tracking
  | index, e :: rest, tracking =>
      let e := insertedEvent tenant now (newID index) e
      insertEventsFrom tenant now newID (index + 1) rest (tracking.insert e.id e)

def trackingInsertEvents (newID : Nat → Text) (evs : List TrackingEvent) (s : TenantStore) :
    Except Err Unit × TenantStore :=
  (.ok (), { s with tracking := insertEventsFrom s.tenant s.now newID 0 evs s.tracking })

def trackingDeleteBefore (before : Time) (limit : Int) (s : TenantStore) : Except Err Nat × TenantStore :=
  let (deleted, tracking) :=
    deleteBefore s.tracking (truncateTime before) limit TrackingEvent.createdAt fun _ => true
  (.ok deleted, { s with tracking })

def outboxClaimPending (limit : Int) (lease : Duration) (owner : Text) (now : Time) (s : TenantStore) :
    Except Err (List OutboxEvent) × TenantStore :=
  let (claimed, outbox) := Outbox.claimPending limit lease owner now s.outbox
  (.ok claimed, { s with outbox })

def outboxReset (id : Text) (now : Time) (s : TenantStore) : Except Err Unit × TenantStore :=
  let (reply, outbox) := Outbox.reset id now s.outbox
  (reply, { s with outbox })

def outboxMarkDelivered (id : Text) (time : Time) (s : TenantStore) : Except Err Unit × TenantStore :=
  let (reply, outbox) := Outbox.markDelivered id time s.outbox
  (reply, { s with outbox })

def outboxMarkFailed (id : Text) (nextAttempt : Time) (errMsg : Text) (s : TenantStore) :
    Except Err Unit × TenantStore :=
  let (reply, outbox) := Outbox.markFailed id nextAttempt errMsg s.outbox
  (reply, { s with outbox })

/-- A pending event is still owed to the host. -/
def outboxDeleteBefore (before : Time) (limit : Int) (s : TenantStore) : Except Err Nat × TenantStore :=
  let (deleted, outbox) := deleteBefore s.outbox (truncateTime before) limit OutboxEvent.createdAt
    fun e => e.status = .delivered || e.status = .failed
  (.ok deleted, { s with outbox })

def bounceMailboxUpdateHealth (id : Text) (h : MailboxHealth) (s : TenantStore) : Except Err Unit × TenantStore :=
  let (reply, bounceMailboxes) := bounceMailboxHealth.update s.now s.bounceMailboxes id h
  (reply, { s with bounceMailboxes })

def workerHeartbeat (w : Worker) (s : TenantStore) : Except Err Unit × TenantStore :=
  if w.id = [] then (.error (.wrap .invalid (text "worker needs an ID")), s)
  else
    let lastSeenAt := if w.lastSeenAt = 0 then s.now else w.lastSeenAt
    let startedAt := match s.workers[w.id]? with
      | some prev => if w.startedAt = 0 then prev.startedAt else w.startedAt
      | none => if w.startedAt = 0 then lastSeenAt else w.startedAt
    let w := { w with
      tenantID := s.tenant, startedAt := truncateTime startedAt, lastSeenAt := truncateTime lastSeenAt }
    (.ok (), { s with workers := s.workers.insert w.id w })

end TenantStore

end Sendplane.Memstore
