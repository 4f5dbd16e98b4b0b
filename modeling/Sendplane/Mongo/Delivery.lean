import Sendplane.Memstore.Delivery

namespace Sendplane.Mongo

open Data Store
open Memstore (matchStatus matchClass)

structure DeliveryDoc where
  campaignID : Text := []
  lane : Lane := .bulk
  priority : Int := 0
  status : DeliveryStatus := .pending
  attemptCount : Int := 0
  retryGen : Int := 0
  nextAttemptAt : Option Time := none
  leaseOwner : Text := []
  leaseUntil : Option Time := none
  claimToken : Text := []
  lastErrorClass : ErrorClass := .none
  lastSMTPCode : Int := 0
  lastError : Text := []
  messageID : Text := []
  sentAt : Option Time := none
  finishedAt : Option Time := none
  updatedAt : Time := 0
deriving DecidableEq

/-- Numbers are narrowed to 32 bits at the bounds. -/
def i32 (value : Int) : Int :=
  if value > 2147483647 then 2147483647 else if value < -2147483648 then -2147483648 else value

def claimableStatuses : List DeliveryStatus := [.queued, .deferred]

def inCampaigns (campaignIDs : List Text) (doc : DeliveryDoc) : Bool :=
  doc.campaignID ≠ [] && campaignIDs.contains doc.campaignID

def claimFilter (req : ClaimRequest) (doc : DeliveryDoc) : Bool :=
  let ready := claimableStatuses.contains doc.status
  doc.lane = req.lane && doc.nextAttemptAt.any (· ≤ truncateTime req.now) &&
    match req.campaignIDs with
    | none => ready
    | some [] => ready && doc.campaignID = []
    | some ids =>
        (doc.campaignID = [] || inCampaigns ids doc) && (ready || doc.status = .pending && inCampaigns ids doc)

theorem claimFilter_status (eligible : claimFilter req doc = true) :
    doc.status = .queued ∨ doc.status = .deferred ∨ doc.status = .pending := by
  unfold claimFilter at eligible
  split at eligible <;> simp [claimableStatuses] at eligible <;> tauto

def leaseDoc (req : ClaimRequest) (token : Text) (doc : DeliveryDoc) : DeliveryDoc :=
  { doc with
    status := .leased
    leaseOwner := req.workerID
    leaseUntil := some (truncateTime (req.now + req.leaseFor))
    claimToken := token
    updatedAt := truncateTime req.now }

/-- Priority first, then the oldest due document, nulls before every time. -/
def claimSort (a b : Text × DeliveryDoc) : Bool :=
  if a.2.priority ≠ b.2.priority then a.2.priority > b.2.priority
  else match a.2.nextAttemptAt, b.2.nextAttemptAt with
    | none, some _ => true
    | some _, none => false
    | some x, some y => if x ≠ y then x < y else compare a.1 b.1 == .lt
    | none, none => compare a.1 b.1 == .lt

def completeFilter (res : DeliveryResult) (doc : DeliveryDoc) : Bool :=
  res.leaseOwner ≠ [] && doc.leaseOwner = res.leaseOwner

def completeDoc (now : Time) (res : DeliveryResult) (doc : DeliveryDoc) : DeliveryDoc :=
  { doc with
    status := res.newStatus
    lastErrorClass := res.errorClass
    lastSMTPCode := i32 res.smtpCode
    lastError := res.error
    leaseOwner := []
    leaseUntil := none
    claimToken := []
    updatedAt := truncateTime now
    messageID := if res.messageID ≠ [] then res.messageID else doc.messageID
    attemptCount := if res.incrementAttempt then doc.attemptCount + 1 else doc.attemptCount
    nextAttemptAt := if res.nextAttemptAt ≠ 0 then some (truncateTime res.nextAttemptAt) else doc.nextAttemptAt
    sentAt := if res.newStatus = .sent then some (doc.sentAt.getD (truncateTime now)) else doc.sentAt
    finishedAt := if res.newStatus.terminal then some (truncateTime now) else doc.finishedAt }

def releaseFilter (now : Time) (doc : DeliveryDoc) : Bool :=
  doc.status = .leased && doc.leaseUntil.any (· < truncateTime now)

def releaseDoc (now : Time) (doc : DeliveryDoc) : DeliveryDoc :=
  { doc with
    status := if doc.attemptCount > 0 then .deferred else .queued
    leaseOwner := []
    leaseUntil := none
    claimToken := []
    nextAttemptAt := some (truncateTime now)
    updatedAt := truncateTime now }

def transitionFilter (campaignID : Text) (source : List DeliveryStatus) (target : DeliveryStatus)
    (doc : DeliveryDoc) : Bool :=
  doc.campaignID = campaignID && doc.status ≠ target && matchStatus source doc.status

/-- The lease and the token stay as they are. -/
def transitionDoc (target : DeliveryStatus) (now : Time) (doc : DeliveryDoc) : DeliveryDoc :=
  { doc with
    status := target
    updatedAt := truncateTime now
    finishedAt := if target.terminal then some (truncateTime now) else doc.finishedAt }

def requeueFilter (f : RetryFilter) (id : Text) (doc : DeliveryDoc) : Bool :=
  doc.campaignID = f.campaignID && f.deliveryIDs.all (·.contains id) &&
    matchStatus f.statuses doc.status && matchClass f.errorClasses doc.lastErrorClass

def requeueDoc (f : RetryFilter) (doc : DeliveryDoc) : DeliveryDoc :=
  { doc with
    status := .queued
    nextAttemptAt := some (truncateTime f.now)
    leaseOwner := []
    leaseUntil := none
    claimToken := []
    finishedAt := none
    updatedAt := truncateTime f.now
    retryGen := doc.retryGen + 1 }

end Sendplane.Mongo
