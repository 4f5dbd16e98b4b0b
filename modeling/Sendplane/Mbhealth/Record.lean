import Sendplane.Store.Records

namespace Sendplane.Mbhealth

open Store

/-- What a check of a mailbox has found. -/
inductive Outcome where
  | ok
  | fail (stage reason : Text)
deriving DecidableEq

def nextHealth (prev : MailboxHealth) (outcome : Outcome) (now : Time) : MailboxHealth :=
  let now := truncateTime now
  match outcome with
  | .ok => { status := .ok, stage := text "ok", checkedAt := now, lastOKAt := now }
  | .fail stage reason =>
      { status := .error, stage, reason, checkedAt := now, lastOKAt := prev.lastOKAt
        consecutiveFailures := prev.consecutiveFailures + 1 }

def eventUnhealthy : Text := text "mailbox.unhealthy"
def eventRecovered : Text := text "mailbox.recovered"

def failuresForEvent : Int := 2

def healthEvent (prev next : MailboxHealth) : Option Text :=
  if next.status = .error ∧ next.consecutiveFailures = failuresForEvent then
    some eventUnhealthy
  else if next.status = .ok ∧ prev.status = .error ∧ prev.consecutiveFailures ≥ failuresForEvent then
    some eventRecovered
  else none

/-- The two kinds of mailboxes that are watched. -/
inductive Kind where
  | probe | bounce
deriving DecidableEq

structure Mailbox where
  id : Text
  name : Text
  health : MailboxHealth
deriving DecidableEq

structure Notice where
  kind : Kind
  type : Text
  body : MailboxEventPayload
  createdAt : Time
  nextAttemptAt : Time
deriving DecidableEq

def eventPayload (m : Mailbox) (next : MailboxHealth) (now : Time) : MailboxEventPayload where
  mailboxID := m.id
  name := m.name
  status := next.status
  stage := next.stage
  reason := next.reason
  failures := next.consecutiveFailures
  checkedAt := next.checkedAt
  lastOKAt := next.lastOKAt
  occurredAt := truncateTime now

def notice (kind : Kind) (m : Mailbox) (outcome : Outcome) (now : Time) : Option Notice :=
  let next := nextHealth m.health outcome now
  (healthEvent m.health next).map fun type =>
    { kind, type
      body := eventPayload m next now
      createdAt := truncateTime now
      nextAttemptAt := truncateTime now }

end Sendplane.Mbhealth
