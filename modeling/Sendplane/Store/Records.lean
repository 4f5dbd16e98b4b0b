import Sendplane.Store.Basic

namespace Sendplane.Store

open Data

/-- The verdicts are ordered; the summary of several is the worst. -/
inductive HealthStatus where
  | unknown | green | yellow | red
deriving DecidableEq, Inhabited

def HealthStatus.rank : HealthStatus → Nat
  | .unknown => 0
  | .green => 1
  | .yellow => 2
  | .red => 3

structure Sender where
  id : Text := []
  tenantID : Text := []
  name : Text := []
  fromName : Text := []
  fromEmail : Text := []
  replyTo : Text := []
  transportID : Text := []
  domainID : Text := []
  shared : Bool := false
  health : HealthStatus := .unknown
  healthReason : Text := []
  healthCheckedAt : Time := 0
  version : Int := 0
  createdAt : Time := 0
  updatedAt : Time := 0
deriving DecidableEq

inductive TLSMode where
  | unset | plain | starttls | implicit
deriving DecidableEq, Inhabited

inductive TransportStatus where
  | healthy | cooldown | unhealthy
deriving DecidableEq, Inhabited

structure Transport where
  id : Text := []
  tenantID : Text := []
  name : Text := []
  host : Text := []
  port : Int := 0
  tls : TLSMode := .unset
  username : Text := []
  password : Text := []
  maxConns : Int := 0
  ratePerSecond : Rat := 0
  domainRatePerSecond : List (Text × Rat) := []
  shared : Bool := false
  status : TransportStatus := .healthy
  statusReason : Text := []
  statusChangedAt : Time := 0
  statusUntil : Time := 0
  version : Int := 0
  createdAt : Time := 0
  updatedAt : Time := 0
deriving DecidableEq

structure SendingDomain where
  id : Text := []
  tenantID : Text := []
  domain : Text := []
  dkimSelector : Text := []
  dkimPrivateKey : Text := []
  returnPathDomain : Text := []
  expectedSPF : Text := []
  outboundIPs : List Text := []
  shared : Bool := false
  health : HealthStatus := .unknown
  healthReason : Text := []
  healthCheckedAt : Time := 0
  version : Int := 0
  createdAt : Time := 0
  updatedAt : Time := 0
deriving DecidableEq

inductive MailboxStatus where
  | unknown | ok | error
deriving DecidableEq, Inhabited

/-- Whether an account can still be logged in to. -/
structure MailboxHealth where
  status : MailboxStatus := .unknown
  stage : Text := []
  reason : Text := []
  checkedAt : Time := 0
  lastOKAt : Time := 0
  consecutiveFailures : Int := 0
deriving DecidableEq

/-- How a probe mail comes back; a row without a kind is an IMAP account. -/
inductive ProbeMailboxKind where
  | imap | webhook
deriving DecidableEq, Inhabited

structure ProbeMailbox where
  id : Text := []
  tenantID : Text := []
  name : Text := []
  kind : ProbeMailboxKind := .imap
  address : Text := []
  host : Text := []
  port : Int := 0
  tls : TLSMode := .unset
  username : Text := []
  password : Text := []
  inboxFolder : Text := []
  spamFolder : Text := []
  authServID : Text := []
  enabled : Bool := false
  shared : Bool := false
  health : MailboxHealth := {}
  version : Int := 0
  createdAt : Time := 0
  updatedAt : Time := 0
deriving DecidableEq

structure ProbeRun where
  id : Text := []
  tenantID : Text := []
  senderID : Text := []
  mailboxID : Text := []
  deliveryID : Text := []
  groupID : Text := []
  pending : Bool := false
  status : HealthStatus := .unknown
  reason : Text := []
  delivered : Bool := false
  folder : Text := []
  latency : Duration := 0
  spf : Text := []
  dkim : Text := []
  dmarc : Text := []
  dkimDomain : Text := []
  dkimSelector : Text := []
  dmarcPolicy : Text := []
  tls : Bool := false
  observedIP : Text := []
  ptr : Text := []
  ptrMatch : Bool := false
  dns : Text := []
  rawHeaders : Text := []
  startedAt : Time := 0
  receivedAt : Time := 0
  createdAt : Time := 0
deriving DecidableEq

inductive BounceType where
  | unknown | hard | soft | complaint
deriving DecidableEq, Inhabited

/-- What identified the delivery.  A parsed message that matched nothing has
the source `none`; a stored event never has. -/
inductive BounceSource where
  | none | verp | header | messageID | heuristic
deriving DecidableEq, Inhabited

structure BounceEvent where
  id : Text := []
  tenantID : Text := []
  deliveryID : Text := []
  type : BounceType
  source : BounceSource
  verified : Bool
  recipient : Text
  emailNorm : Text := []
  smtpStatus : Text
  diagnosticCode : Text
  messageID : Text
  raw : Text := []
  receivedAt : Time
  createdAt : Time

structure BounceMailbox where
  id : Text := []
  tenantID : Text := []
  name : Text := []
  address : Text := []
  protocol : Text := []
  host : Text := []
  port : Int := 0
  tls : TLSMode := .unset
  username : Text := []
  password : Text := []
  folder : Text := []
  afterProcess : Text := []
  enabled : Bool := false
  shared : Bool := false
  health : MailboxHealth := {}
  version : Int := 0
  createdAt : Time := 0
  updatedAt : Time := 0

inductive SuppressionReason where
  | hardBounce | complaint | manual

/-- `expiresAt` is zero for an entry that never expires. -/
structure Suppression where
  tenantID : Text := []
  emailNorm : Text
  reason : SuppressionReason
  sourceDeliveryID : Text := []
  createdAt : Time := 0
  expiresAt : Time := 0

inductive Confidence where
  | none | high | medium | low

structure BounceEventPayload where
  deliveryID : Text
  campaignID : Text
  status : DeliveryStatus
  email : Text
  emailNorm : Text
  lane : Lane
  occurredAt : Time
  bounceType : BounceType
  bounceSource : BounceSource
  smtpStatus : Text
  diagnosticCode : Text
  confidence : Confidence
  suppressed : Bool

/-- A count per delivery status; a status that does not occur counts zero. -/
abbrev StatusCounts := DeliveryStatus → Nat

structure CampaignStats where
  byStatus : StatusCounts := fun _ => 0
  uniqueOpens : Nat := 0
  uniqueClicks : Nat := 0
  unsubscribed : Nat := 0
  unsubscribeClicked : Nat := 0
  computedAt : Time := 0

structure Campaign where
  id : Text := []
  tenantID : Text := []
  name : Text := []
  templateID : Text := []
  versionID : Text := []
  senderID : Text := []
  defaultLocale : Text := []
  vars : Vars := {}
  tenantVars : Vars := {}
  status : CampaignStatus := .draft
  scheduleAt : Time := 0
  startedAt : Time := 0
  completedAt : Time := 0
  stats : CampaignStats := {}
  version : Int := 0
  createdAt : Time := 0
  updatedAt : Time := 0

/-- An immutable published message. -/
structure MessageVersion where
  id : Text := []
  tenantID : Text := []
  templateID : Text := []
  subjectTpl : Text := []
  htmlTpl : Text := []
  textTpl : Text := []
  defaultLocale : Text := []
  links : List Text := []
  createdAt : Time := 0

inductive ChunkState where
  | pending | completed
deriving DecidableEq

/-- One ingest call, so that sending the same chunk again is idempotent. -/
structure RecipientChunk where
  tenantID : Text := []
  campaignID : Text := []
  key : Text := []
  state : ChunkState := .pending
  accepted : Int := 0
  duplicates : Int := 0
  invalid : Int := 0
  createdAt : Time := 0
  updatedAt : Time := 0
deriving DecidableEq

/-- The bookkeeping of a template and what starting a campaign reads of it.  The
last two fields are computed when a template is read and never stored. -/
structure Template where
  id : Text := []
  tenantID : Text := []
  key : Text := []
  shared : Bool := false
  publishedVersionID : Text := []
  version : Int := 0
  createdAt : Time := 0
  updatedAt : Time := 0
  overridden : Bool := false
  sharedPublishedVersionID : Text := []
deriving DecidableEq

structure Layout where
  id : Text := []
  tenantID : Text := []
  key : Text := []
  shared : Bool := false
  version : Int := 0
  createdAt : Time := 0
  updatedAt : Time := 0
  overridden : Bool := false

inductive TrackingKind where
  | opened | click | unsubscribeClicked | unsubscribed
deriving DecidableEq

structure TrackingEvent where
  id : Text := []
  tenantID : Text := []
  deliveryID : Text := []
  campaignID : Text := []
  kind : TrackingKind := .opened
  url : Text := []
  linkNo : Int := 0
  userAgent : Text := []
  ipHash : Text := []
  suspectedBot : Bool := false
  createdAt : Time := 0
deriving DecidableEq

structure TrackingCounts where
  uniqueOpens : Nat
  uniqueClicks : Nat
  unsubscribeClicked : Nat
  unsubscribed : Nat

structure CampaignEventPayload where
  campaignID : Text
  name : Text
  status : CampaignStatus
  versionID : Text
  senderID : Text
  occurredAt : Time
  /-- Only filled when the campaign completes. -/
  byStatus : Option StatusCounts

structure HealthChangedPayload where
  senderID : Text
  name : Text
  source : HealthStatus
  target : HealthStatus
  reason : Text
  checkedAt : Time
  occurredAt : Time

structure MailboxEventPayload where
  mailboxID : Text
  name : Text
  status : MailboxStatus
  stage : Text
  reason : Text
  failures : Int
  checkedAt : Time
  lastOKAt : Time
  occurredAt : Time
deriving DecidableEq

structure DeliveryEventPayload where
  deliveryID : Text
  campaignID : Text
  senderID : Text
  status : DeliveryStatus
  email : Text
  emailNorm : Text
  lane : Lane
  occurredAt : Time
  messageID : Text
  attemptNo : Int
  errorClass : ErrorClass
  smtpCode : Int
  error : Text

structure UnsubscribePayload where
  tenantID : Text
  campaignID : Text
  deliveryID : Text
  email : Text
  emailNorm : Text
  source : Text
  occurredAt : Time

/-- The JSON body of an event, before it is encoded. -/
inductive Payload where
  | campaign (body : CampaignEventPayload)
  | healthChanged (body : HealthChangedPayload)
  | probeMailbox (body : MailboxEventPayload)
  | delivery (body : DeliveryEventPayload)
  | bounce (body : BounceEventPayload)
  | unsubscribe (body : UnsubscribePayload)

inductive OutboxStatus where
  | pending | delivered | failed
deriving DecidableEq

structure OutboxEvent where
  id : Text := []
  tenantID : Text := []
  type : Text
  payload : Payload
  status : OutboxStatus := .pending
  attempts : Int := 0
  nextAttemptAt : Time := 0
  leaseOwner : Text := []
  leaseUntil : Time := 0
  lastError : Text := []
  createdAt : Time := 0
  deliveredAt : Time := 0

structure Lock where
  tenantID : Text := []
  name : Text := []
  owner : Text := []
  acquiredAt : Time := 0
  expiresAt : Time := 0

structure LockRepo where
  acquire (name owner : Text) (ttl : Duration) (now : Time) (locks : Table Text Lock) : Bool × Table Text Lock
  renew (name owner : Text) (ttl : Duration) (now : Time) (locks : Table Text Lock) : Bool × Table Text Lock
  release (name owner : Text) (locks : Table Text Lock) : Table Text Lock

structure Worker where
  id : Text := []
  tenantID : Text := []
  role : Text := []
  lanes : List Lane := []
  concurrency : Int := 0
  startedAt : Time := 0
  lastSeenAt : Time := 0

end Sendplane.Store
