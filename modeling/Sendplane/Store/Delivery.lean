import Sendplane.Store.Basic

namespace Sendplane.Store

/-- A delivery has no version: transitions are conditional on status or lease. -/
structure Delivery where
  id : Text := []
  tenantID : Text := []
  /-- Empty for transactional and probe deliveries. -/
  campaignID : Text := []
  versionID : Text := []
  senderID : Text := []
  lane : Lane := .bulk
  priority : Int := 0
  status : DeliveryStatus := .pending
  email : Text := []
  emailNorm : Text := []
  name : Text := []
  locale : Text := []
  vars : Vars := {}
  tenantVars : Vars := {}
  unsubscribeURL : Text := []
  headers : Vars := {}
  attemptCount : Int := 0
  retryGen : Int := 0
  nextAttemptAt : Time := 0
  leaseOwner : Text := []
  leaseUntil : Time := 0
  lastErrorClass : ErrorClass := .none
  lastSMTPCode : Int := 0
  lastError : Text := []
  messageID : Text := []
  sentAt : Time := 0
  finishedAt : Time := 0
  firstOpenedAt : Time := 0
  firstClickedAt : Time := 0
  unsubscribedAt : Time := 0
  createdAt : Time := 0
  updatedAt : Time := 0
deriving DecidableEq, Inhabited

structure DeliveryAttempt where
  id : Text := []
  tenantID : Text := []
  deliveryID : Text := []
  attemptNo : Int := 0
  retryGen : Int := 0
  transportID : Text := []
  startedAt : Time := 0
  finishedAt : Time := 0
  smtpCode : Int := 0
  enhancedCode : Text := []
  errorClass : ErrorClass := .none
  error : Text := []
  createdAt : Time := 0
deriving DecidableEq

/-- One sender's request for work.  `campaignIDs` is `none` for no filter; a
list also decides which pending rows are claimable. -/
structure ClaimRequest where
  lane : Lane
  campaignIDs : Option (List Text)
  limit : Int
  leaseFor : Duration
  workerID : Text
  now : Time

/-- One finished attempt.  It is dropped unless `leaseOwner` still holds the
lease of the delivery. -/
structure DeliveryResult where
  deliveryID : Text := []
  leaseOwner : Text := []
  newStatus : DeliveryStatus := .pending
  nextAttemptAt : Time := 0
  errorClass : ErrorClass := .none
  smtpCode : Int := 0
  error : Text := []
  messageID : Text := []
  incrementAttempt : Bool := false
  attempt : Option DeliveryAttempt := none
deriving DecidableEq

/-- Selects deliveries for a manual retry.  `deliveryIDs` is `none` for every
match, while an empty list matches nothing. -/
structure RetryFilter where
  campaignID : Text := []
  deliveryIDs : Option (List Text) := none
  statuses : List DeliveryStatus := []
  errorClasses : List ErrorClass := []
  now : Time := 0

end Sendplane.Store
