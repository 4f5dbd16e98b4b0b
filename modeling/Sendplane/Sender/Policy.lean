import Sendplane.Store.Delivery
import Sendplane.Store.Settings
import Mathlib.Data.Rat.Floor

namespace Sendplane.Sender

open Store

/-- A classified send error; the class `none` is a success. -/
structure Failure where
  errorClass : ErrorClass := .none
  code : Int := 0
  enhanced : Text := []
  message : Text := []

/-- What becomes of a delivery after an attempt. -/
structure Decision where
  status : DeliveryStatus
  nextAttemptAt : Time := 0
  incrementAttempt : Bool := false
  recordAttempt : Bool := false

structure Policy where
  retry : RetryPolicy
  rateLimitCap : Duration := 5 * minute
  authRetryAfter : Duration := minute
  /-- The backoff is spread by this fraction either way. -/
  jitter : Rat := 1 / 5
  /-- The draw from `[0, 1)` that spreads it. -/
  rand : Rat := 0

namespace Policy

variable (p : Policy)

/-- The last entry serves every attempt past the end of the schedule. -/
def backoff (n : Int) : Duration :=
  if p.retry.backoff = [] then minute
  else
    let i : Int := if n - 1 < 0 then 0 else n - 1
    let i : Int := if i ≥ p.retry.backoff.length then p.retry.backoff.length - 1 else i
    p.retry.backoff.getD i.toNat 0

def jittered (d : Duration) : Duration :=
  if p.jitter ≤ 0 ∨ d ≤ 0 then d
  else
    let out := (d * (1 + p.jitter * (2 * p.rand - 1))).floor
    if out < 0 then 0 else out

def decide (errorClass : ErrorClass) (attemptCount : Int) (now : Time) : Decision :=
  match errorClass with
  | .none => { status := .sent, recordAttempt := true }
  | .transient | .rateLimited =>
      let consumed := attemptCount + 1
      let max := if p.retry.maxAttempts ≤ 0 then 1 else p.retry.maxAttempts
      if consumed ≥ max then { status := .failed, incrementAttempt := true, recordAttempt := true }
      else
        let d := p.backoff consumed
        let d := if errorClass = .rateLimited ∧ p.rateLimitCap > 0 ∧ d > p.rateLimitCap then p.rateLimitCap else d
        { status := .deferred, nextAttemptAt := now + p.jittered d, incrementAttempt := true
          recordAttempt := true }
  | .permanent | .policy => { status := .failed, recordAttempt := true }
  | .auth => { status := .queued, nextAttemptAt := now + p.authRetryAfter, recordAttempt := true }

end Policy

def internalRetryAfter : Duration := 30000000000

/-- The sender and not the delivery is at fault: back to the queue, with no
attempt consumed. -/
def internalDefer (workerID : Text) (clock : Time) (d : Delivery) (what message : Text) : DeliveryResult where
  deliveryID := d.id
  leaseOwner := workerID
  newStatus := .queued
  nextAttemptAt := clock + internalRetryAfter
  error := what ++ text ": " ++ message

/-- A final failure that never reached SMTP. -/
def failResult (workerID : Text) (d : Delivery) (errorClass : ErrorClass) (code : Int) (message : Text)
    (now : Time) : DeliveryResult where
  deliveryID := d.id
  leaseOwner := workerID
  newStatus := .failed
  errorClass := errorClass
  smtpCode := code
  error := message
  attempt := some {
    tenantID := d.tenantID, deliveryID := d.id, attemptNo := d.attemptCount, retryGen := d.retryGen
    startedAt := now, finishedAt := now, errorClass := errorClass, error := message, smtpCode := code }

/-- A row that is missing can never be sent with; any other failure is the
sender's own. -/
def configResult (workerID : Text) (clock : Time) (d : Delivery) (what : Text) (e : Err) : DeliveryResult :=
  if e.kind ≠ .notFound then internalDefer workerID clock d what e.message
  else failResult workerID d .permanent 0 (what ++ text " not found: " ++ e.message) clock

def decideResult (workerID : Text) (pol : Policy) (d : Delivery) (f : Failure) (now : Time)
    (transportID : Text) : DeliveryResult :=
  let dec := pol.decide f.errorClass d.attemptCount now
  { deliveryID := d.id
    leaseOwner := workerID
    newStatus := dec.status
    nextAttemptAt := dec.nextAttemptAt
    errorClass := f.errorClass
    smtpCode := f.code
    error := f.message
    incrementAttempt := dec.incrementAttempt
    attempt := if !dec.recordAttempt then none
      else some {
        tenantID := d.tenantID, deliveryID := d.id
        attemptNo := if dec.incrementAttempt then d.attemptCount + 1 else d.attemptCount
        retryGen := d.retryGen, transportID := transportID, startedAt := now, finishedAt := now
        smtpCode := f.code, enhancedCode := f.enhanced, errorClass := f.errorClass, error := f.message } }

end Sendplane.Sender
