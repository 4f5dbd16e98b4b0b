import Sendplane.Store.Delivery

namespace Sendplane.Memstore

open Data Store

/-! # The in-memory delivery repository

Each repository method is a function of the part of the tenant data it touches.
`clock` is the provider clock at the call, and `newID` numbers the identifiers
generated inside one call.
-/

structure DeliveryRepo where
  tenant : Text := []
  deliveries : Table Text Delivery := ∅
  /-- The (campaign, address) unique key, by `emailKey`. -/
  campaignEmails : Table Text Text := ∅
  attempts : Table Text DeliveryAttempt := ∅

def emailKey (campaignID emailNorm : Text) : Text :=
  campaignID ++ 0 :: emailNorm

def truncateDelivery (d : Delivery) : Delivery :=
  { d with
    nextAttemptAt := truncateTime d.nextAttemptAt
    leaseUntil := truncateTime d.leaseUntil
    sentAt := truncateTime d.sentAt
    finishedAt := truncateTime d.finishedAt
    firstOpenedAt := truncateTime d.firstOpenedAt
    firstClickedAt := truncateTime d.firstClickedAt
    unsubscribedAt := truncateTime d.unsubscribedAt
    createdAt := truncateTime d.createdAt
    updatedAt := truncateTime d.updatedAt }

def truncateAttempt (a : DeliveryAttempt) : DeliveryAttempt :=
  { a with
    startedAt := truncateTime a.startedAt
    finishedAt := truncateTime a.finishedAt
    createdAt := truncateTime a.createdAt }

def withID (newID : Text) (d : Delivery) : Delivery :=
  if d.id = [] then { d with id := newID } else d

def stampDelivery (tenant : Text) (now : Time) (d : Delivery) : Delivery :=
  truncateDelivery { d with
    tenantID := tenant
    createdAt := if d.createdAt = 0 then now else d.createdAt
    updatedAt := now
    nextAttemptAt := if d.nextAttemptAt = 0 then now else d.nextAttemptAt }

namespace DeliveryRepo

def putDelivery (repo : DeliveryRepo) (now : Time) (d : Delivery) : DeliveryRepo :=
  { repo with deliveries := repo.deliveries.insert d.id (stampDelivery repo.tenant now d) }

/-- One turn of the insert loop; `none` when the row is skipped as a duplicate
of its campaign. -/
def insertRow (repo : DeliveryRepo) (now : Time) (newID : Text) (d : Delivery) :
    Option DeliveryRepo :=
  if d.campaignID ≠ [] then
    let key := emailKey d.campaignID d.emailNorm
    match repo.campaignEmails[key]? with
    | some _ => none
    | none =>
        let d := withID newID d
        let indexed := { repo with campaignEmails := repo.campaignEmails.insert key d.id }
        some (indexed.putDelivery now d)
  else
    some (repo.putDelivery now (withID newID d))

/-- The insert loop from row `index` of the batch on, with the count of the
rows it inserts. -/
def insertRows (now : Time) (newID : Nat → Text) :
    Nat → List Delivery → DeliveryRepo → Nat × DeliveryRepo
  | _, [], repo => (0, repo)
  | index, d :: rest, repo =>
      match repo.insertRow now (newID index) d with
      | none => insertRows now newID (index + 1) rest repo
      | some next =>
          let (inserted, final) := insertRows now newID (index + 1) rest next
          (inserted + 1, final)

/-- The whole batch is validated before anything is written. -/
def insertBatch (repo : DeliveryRepo) (clock : Time) (newID : Nat → Text) (ds : List Delivery) :
    Except Err Nat × DeliveryRepo :=
  match ds.findIdx? fun d => d.emailNorm = [] with
  | some index =>
      (.error (.wrap .invalid
        (text "delivery " ++ text (toString index) ++ text " has no email_norm")), repo)
  | none =>
      let (inserted, final) := insertRows (truncateTime clock) newID 0 ds repo
      (.ok inserted, final)

def get (repo : DeliveryRepo) (id : Text) : Except Err Delivery :=
  match repo.deliveries[id]? with
  | none => .error (.wrap .notFound (text "delivery " ++ id))
  | some d => .ok d

end DeliveryRepo

def matchAny {α : Type} [DecidableEq α] (accepted : List α) (value : α) : Bool :=
  accepted.isEmpty || accepted.contains value

def matchStatus (statuses : List DeliveryStatus) (status : DeliveryStatus) : Bool :=
  matchAny statuses status

def matchClass (classes : List ErrorClass) (errorClass : ErrorClass) : Bool :=
  matchAny classes errorClass

/-- Queued and deferred rows always, pending ones only for a named campaign. -/
def claimableStatus (d : Delivery) (campaigns : Option (List Text)) : Bool :=
  match d.status with
  | .queued | .deferred => true
  | .pending => d.campaignID ≠ [] && campaigns.any (·.contains d.campaignID)
  | _ => false

def claimable (req : ClaimRequest) (d : Delivery) : Bool :=
  d.lane = req.lane &&
    claimableStatus d req.campaignIDs &&
    d.nextAttemptAt ≤ truncateTime req.now &&
    (d.campaignID = [] || req.campaignIDs.all (·.contains d.campaignID))

/-- Highest priority first, then the longest due, then by ID. -/
def claimLess (a b : Delivery) : Bool :=
  if a.priority ≠ b.priority then a.priority > b.priority
  else if a.nextAttemptAt ≠ b.nextAttemptAt then a.nextAttemptAt < b.nextAttemptAt
  else compare a.id b.id == .lt

def leaseTo (req : ClaimRequest) (d : Delivery) : Delivery :=
  let now := truncateTime req.now
  truncateDelivery { d with
    status := .leased
    leaseOwner := req.workerID
    leaseUntil := now + req.leaseFor
    updatedAt := now }

def applyResult (now : Time) (res : DeliveryResult) (d : Delivery) : Delivery :=
  truncateDelivery { d with
    status := res.newStatus
    lastErrorClass := res.errorClass
    lastSMTPCode := res.smtpCode
    lastError := res.error
    messageID := if res.messageID ≠ [] then res.messageID else d.messageID
    attemptCount := if res.incrementAttempt then d.attemptCount + 1 else d.attemptCount
    nextAttemptAt := if res.nextAttemptAt ≠ 0 then res.nextAttemptAt else d.nextAttemptAt
    sentAt := if res.newStatus = .sent ∧ d.sentAt = 0 then now else d.sentAt
    finishedAt := if res.newStatus.terminal then now else d.finishedAt
    leaseOwner := []
    leaseUntil := 0
    updatedAt := now }

def stampAttempt (tenant : Text) (now : Time) (newID : Text) (deliveryID : Text)
    (a : DeliveryAttempt) : DeliveryAttempt :=
  truncateAttempt { a with
    id := if a.id = [] then newID else a.id
    tenantID := tenant
    deliveryID := deliveryID
    createdAt := if a.createdAt = 0 then now else a.createdAt }

def markSentRow (messageID : Text) (time : Time) (d : Delivery) : Delivery :=
  truncateDelivery { d with
    status := .sent
    messageID := messageID
    sentAt := time
    finishedAt := time
    updatedAt := time }

def markTerminalRow (status : DeliveryStatus) (time : Time) (d : Delivery) : Delivery :=
  truncateDelivery { d with
    status := status
    finishedAt := time
    updatedAt := time
    leaseOwner := []
    leaseUntil := 0 }

def leaseExpired (now : Time) (d : Delivery) : Bool :=
  d.status = .leased && d.leaseUntil ≠ 0 && d.leaseUntil < now

def releaseRow (now : Time) (d : Delivery) : Delivery :=
  truncateDelivery { d with
    status := if d.attemptCount > 0 then .deferred else .queued
    leaseOwner := []
    leaseUntil := 0
    nextAttemptAt := now
    updatedAt := now }

def transitions (campaignID : Text) (source : List DeliveryStatus) (target : DeliveryStatus)
    (d : Delivery) : Bool :=
  d.campaignID = campaignID && matchStatus source d.status && d.status ≠ target

def transitionRow (target : DeliveryStatus) (now : Time) (d : Delivery) : Delivery :=
  truncateDelivery { d with
    status := target
    finishedAt := if target.terminal then now else d.finishedAt
    updatedAt := now }

def requeues (f : RetryFilter) (id : Text) (d : Delivery) : Bool :=
  d.campaignID = f.campaignID && f.deliveryIDs.all (·.contains id) &&
    matchStatus f.statuses d.status && matchClass f.errorClasses d.lastErrorClass

def requeueRow (time : Time) (d : Delivery) : Delivery :=
  truncateDelivery { d with
    status := .queued
    retryGen := d.retryGen + 1
    nextAttemptAt := time
    leaseOwner := []
    leaseUntil := 0
    finishedAt := 0
    updatedAt := time }

namespace DeliveryRepo

def claimed (repo : DeliveryRepo) (req : ClaimRequest) : List (Text × Delivery) :=
  takeLimit req.limit
    ((repo.deliveries.toList.filter fun entry => claimable req entry.2).insertionSort
      fun a b => claimLess a.2 b.2 = true)

def claim (repo : DeliveryRepo) (req : ClaimRequest) : List Delivery × DeliveryRepo :=
  let cands := repo.claimed req
  (cands.map fun entry => leaseTo req entry.2,
    { repo with deliveries := repo.deliveries.updateAll (cands.map Prod.fst) (leaseTo req) })

def holdsLease (repo : DeliveryRepo) (res : DeliveryResult) : Bool :=
  repo.deliveries[res.deliveryID]?.any fun d =>
    res.leaseOwner ≠ [] && d.leaseOwner = res.leaseOwner

def completeOne (repo : DeliveryRepo) (now : Time) (newID : Text) (res : DeliveryResult) :
    DeliveryRepo :=
  if repo.holdsLease res then
    { repo with
      deliveries := repo.deliveries.modify res.deliveryID (applyResult now res)
      attempts := match res.attempt with
        | none => repo.attempts
        | some a =>
            let a := stampAttempt repo.tenant now newID res.deliveryID a
            repo.attempts.insert a.id a }
  else repo

def completeFrom (now : Time) (newID : Nat → Text) :
    Nat → List DeliveryResult → DeliveryRepo → DeliveryRepo
  | _, [], repo => repo
  | index, res :: rest, repo =>
      completeFrom now newID (index + 1) rest (repo.completeOne now (newID index) res)

def complete (repo : DeliveryRepo) (clock : Time) (newID : Nat → Text)
    (results : List DeliveryResult) : DeliveryRepo :=
  completeFrom (truncateTime clock) newID 0 results repo

def markSent (repo : DeliveryRepo) (id owner messageID : Text) (time : Time) :
    Except Err Unit × DeliveryRepo :=
  match repo.deliveries[id]? with
  | none => (.error (.wrap .notFound (text "delivery " ++ id)), repo)
  | some d =>
      if d.status ≠ .leased ∨ owner = [] ∨ d.leaseOwner ≠ owner then
        (.error (.wrap .leaseLost (text "delivery " ++ id)), repo)
      else
        -- The lease stays, so that the batched result can still attach its attempt.
        (.ok (), { repo with
          deliveries := repo.deliveries.modify id (markSentRow messageID time) })

def markTerminal (repo : DeliveryRepo) (id : Text) (status : DeliveryStatus) (time : Time) :
    Bool × DeliveryRepo :=
  match repo.deliveries[id]? with
  | none => (false, repo)
  | some d =>
      if d.status ≠ .sent then (false, repo)
      else (true, { repo with
        deliveries := repo.deliveries.modify id (markTerminalRow status time) })

def markBounced (repo : DeliveryRepo) (id : Text) (time : Time) : Bool × DeliveryRepo :=
  repo.markTerminal id .bounced time

def markComplained (repo : DeliveryRepo) (id : Text) (time : Time) : Bool × DeliveryRepo :=
  repo.markTerminal id .complained time

/-- The loop shared by release, bulk transition and requeue: select, sort by
ID, cut to the limit, change each row. -/
def changeWhere (repo : DeliveryRepo) (test : Text → Delivery → Bool) (limit : Int)
    (change : Delivery → Delivery) : Nat × DeliveryRepo :=
  let ids := takeLimit limit (repo.deliveries.keysWhere test)
  (ids.length, { repo with deliveries := repo.deliveries.updateAll ids change })

def releaseExpiredLeases (repo : DeliveryRepo) (now : Time) (limit : Int) : Nat × DeliveryRepo :=
  let now := truncateTime now
  repo.changeWhere (fun _ d => leaseExpired now d) limit (releaseRow now)

def bulkTransition (repo : DeliveryRepo) (clock : Time) (campaignID : Text)
    (source : List DeliveryStatus) (target : DeliveryStatus) (limit : Int) : Nat × DeliveryRepo :=
  repo.changeWhere (fun _ d => transitions campaignID source target d) limit
    (transitionRow target (truncateTime clock))

def requeue (repo : DeliveryRepo) (f : RetryFilter) (limit : Int) : Nat × DeliveryRepo :=
  repo.changeWhere (requeues f) limit (requeueRow (truncateTime f.now))

def countByStatus (repo : DeliveryRepo) (campaignID : Text) (status : DeliveryStatus) : Nat :=
  (repo.deliveries.keysWhere fun _ d => d.campaignID = campaignID && d.status = status).length

end DeliveryRepo

end Sendplane.Memstore
