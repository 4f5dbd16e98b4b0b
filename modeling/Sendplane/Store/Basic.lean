import Sendplane.Data.Table

namespace Sendplane.Store

open Data

/-! # Values shared by every store record

A Go string is its bytes, and identifiers are ordered bytewise.  A time is a count
of nanoseconds since Go's zero time, which is `0`.
-/

abbrev Text := List UInt8

instance : LawfulBEq Text := inferInstance

def text (literal : String) : Text :=
  literal.toByteArray.data.toList

abbrev Time := Int
abbrev Duration := Int

def millisecond : Duration := 1000000

/-- Whole milliseconds; the zero time stays zero. -/
def truncateTime (time : Time) : Time :=
  if time = 0 then 0 else time / millisecond * millisecond

@[simp] theorem truncateTime_zero : truncateTime 0 = 0 := rfl

@[simp] theorem truncateTime_idem : truncateTime (truncateTime time) = truncateTime time := by
  unfold truncateTime
  by_cases zero : time = 0
  · simp [zero]
  · have positive : millisecond ≠ 0 := by decide
    rw [if_neg zero, Int.mul_ediv_cancel _ positive]
    split
    · symm
      assumption
    · rfl

/-- A JSON object the store keeps and never looks into. -/
structure Vars where
  json : Text := []
deriving DecidableEq, Inhabited

inductive ErrKind where
  | notFound
  | conflict
  | invalid
  | leaseLost
  | readOnly
  | invalidTransition
  | noRecipients
  | noSender
  | noVersion
  | notEditable
  | tooManyRecipients
  | invalidState
  | other
deriving DecidableEq

def ErrKind.message : ErrKind → Text
  | .notFound => text "store: not found"
  | .conflict => text "store: conflict"
  | .invalid => text "store: invalid"
  | .leaseLost => text "store: lease lost"
  | .readOnly => text "store: read-only platform entity"
  | .invalidTransition => text "control: invalid campaign transition"
  | .noRecipients => text "control: campaign has no recipients"
  | .noSender => text "control: campaign sender is missing"
  | .noVersion => text "control: campaign has no message version"
  | .notEditable => text "ingest: campaign does not accept recipients"
  | .tooManyRecipients => text "ingest: campaign recipient limit exceeded"
  | .invalidState => text "invalid_state"
  | .other => text "error"

/-- An error wraps one sentinel; callers branch on the sentinel only. -/
structure Err where
  kind : ErrKind
  message : Text
deriving DecidableEq

/-- The error text a format string of the shape "%w: detail" produces. -/
def Err.wrap (kind : ErrKind) (detail : Text) : Err :=
  ⟨kind, kind.message ++ text ": " ++ detail⟩

def defaultPageLimit : Int := 50
def maxPageLimit : Int := 1000

structure Page where
  limit : Int := 0
  cursor : Text := []

def Page.normalize (page : Page) : Page :=
  let limit := if page.limit ≤ 0 then defaultPageLimit else page.limit
  { page with limit := if limit > maxPageLimit then maxPageLimit else limit }

structure Result (α : Type) where
  items : List α
  nextCursor : Text

inductive DeliveryStatus where
  | pending | queued | leased | deferred | sent
  | failed | bounced | complained | suppressed | cancelled
deriving DecidableEq, Inhabited

namespace DeliveryStatus

def name : DeliveryStatus → Text
  | .pending => text "pending"
  | .queued => text "queued"
  | .leased => text "leased"
  | .deferred => text "deferred"
  | .sent => text "sent"
  | .failed => text "failed"
  | .bounced => text "bounced"
  | .complained => text "complained"
  | .suppressed => text "suppressed"
  | .cancelled => text "cancelled"

def terminal : DeliveryStatus → Bool
  | .sent | .failed | .bounced | .complained | .suppressed | .cancelled => true
  | _ => false

end DeliveryStatus

inductive Lane where
  | bulk | transactional | probe
deriving DecidableEq, Inhabited

inductive ErrorClass where
  | none | transient | rateLimited | permanent | policy | auth
deriving DecidableEq, Inhabited

inductive CampaignStatus where
  | draft | scheduled | running | paused | completed | cancelled
deriving DecidableEq, Inhabited

def CampaignStatus.name : CampaignStatus → Text
  | .draft => text "draft"
  | .scheduled => text "scheduled"
  | .running => text "running"
  | .paused => text "paused"
  | .completed => text "completed"
  | .cancelled => text "cancelled"

end Sendplane.Store
