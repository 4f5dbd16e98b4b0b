import Sendplane.Memstore.Provider

namespace Sendplane.Bounce

open Data Store Memstore

structure Correlation where
  deliveryID : Text := []
  tenantID : Text := []
  source : BounceSource := .none
  /-- False only for a return address whose MAC matched no key. -/
  verified : Bool := false

structure Parsed where
  type : BounceType := .unknown
  autoReply : Bool := false
  status : Text := []
  diagnosticCode : Text := []
  finalRecipient : Text := []
  messageID : Text := []
  date : Time := 0
  confidence : Confidence := .none
  correlation : Correlation := {}

def Parsed.isBounce (p : Parsed) : Bool :=
  !p.autoReply && p.type ≠ .unknown

structure Message where
  received : Time := 0
  raw : Text := []

inductive Skip where
  | autoReply | notABounce | noCorrelation | wrongTenant | unknownDelivery | unverified
  | deliveryNotSent | alreadyTerminal | softBounce | notTransitioned
deriving DecidableEq

structure Outcome where
  parsed : Parsed := {}
  recorded : Bool := false
  eventID : Text := []
  processed : Bool := false
  newStatus : DeliveryStatus := .pending
  suppressed : Bool := false
  unverified : Bool := false
  /-- Empty only when the delivery changed. -/
  skipped : Option Skip := none

structure Processor where
  platform : Bool := true
  maxRawBytes : Nat := 256 * 1024
  parseWithKeys : Text → List SigningKey → Except Err Parsed
  normalizeEmail : Text → Except Err Text
  marshal : Text → Text

structure Attempt where
  now : Time
  key : SigningKey := {}
  bounceID : Text
  outboxID : Text

inductive Call where
  | loadSettings | getDelivery | createBounce | mark | upsert
  | getSender | platformView | platformUpsert | enqueue
deriving DecidableEq

abbrev Proc := Prog Call Provider Err

def within (context : Text) (e : Err) : Err :=
  ⟨e.kind, context ++ text ": " ++ e.message⟩

def receivedAt (msg : Message) (parsed : Parsed) (now : Time) : Time :=
  if msg.received ≠ 0 then msg.received
  else if parsed.date ≠ 0 then parsed.date
  else now

namespace Processor

variable (proc : Processor)

def rawJSON (raw : Text) : Text :=
  proc.marshal (if 0 < proc.maxRawBytes then raw.take proc.maxRawBytes else raw)

def bounceEvent (settings : TenantSettings) (parsed : Parsed) (msg : Message) (d : Option Delivery)
    (a : Attempt) : BounceEvent where
  id := a.bounceID
  deliveryID := parsed.correlation.deliveryID
  type := parsed.type
  source := if parsed.correlation.source = .none then .heuristic else parsed.correlation.source
  verified := parsed.correlation.verified
  recipient := match d with
    | some d => if parsed.finalRecipient = [] then d.email else parsed.finalRecipient
    | none => parsed.finalRecipient
  -- The delivery is authoritative about the address.
  emailNorm := match d with
    | some d => d.emailNorm
    | none =>
        if parsed.finalRecipient = [] then []
        else match proc.normalizeEmail parsed.finalRecipient with
          | .ok norm => norm
          | .error _ => []
  smtpStatus := parsed.status
  diagnosticCode := parsed.diagnosticCode
  messageID := parsed.messageID
  raw := if settings.bounceRetainRaw then proc.rawJSON msg.raw else []
  receivedAt := receivedAt msg parsed a.now
  createdAt := a.now

def record (tenantID : Text) (settings : TenantSettings) (out : Outcome) (msg : Message)
    (d : Option Delivery) (a : Attempt) : Proc (Outcome × Option Err) := do
  let ev := proc.bounceEvent settings out.parsed msg d a
  match ← Prog.invoke .createBounce ((Provider.forTenant tenantID).act (TenantStore.bounceCreate a.bounceID ev)) with
  | .error e => return (out, some (within (text "bounce: record event") e))
  | .ok _ => return ({ out with recorded := true, eventID := ev.id }, none)

def suppression (d : Delivery) (reason : SuppressionReason) (now : Time) : Suppression where
  emailNorm := d.emailNorm
  reason := reason
  sourceDeliveryID := d.id
  createdAt := now

/-- Puts the address on the system tenant's list when the delivery went out
through a shared transport. -/
def suppressPlatform (tenantID : Text) (d : Delivery) (reason : SuppressionReason) (now : Time) :
    Proc (Option Err) := do
  if !proc.platform ∨ d.senderID = [] ∨ d.emailNorm = [] then return none
  else match ← Prog.query .getSender (Provider.senderGet tenantID d.senderID) with
    | .error e =>
        if e.kind = .notFound then return none
        else return some (within (text "bounce: sender " ++ d.senderID) e)
    | .ok snd =>
        if !isPlatformID snd.transportID then return none
        else match ← Prog.query (ε := Err) (β := Unit) .platformView (fun _ => .ok ()) with
          | .error e => return some (within (text "bounce: platform view") e)
          | .ok _ =>
              match ← Prog.invoke .platformUpsert
                ((Provider.forTenant systemTenantID).act
                  (TenantStore.suppressionUpsert (suppression d reason now))) with
              | .error e => return some (within (text "bounce: platform suppress " ++ d.emailNorm) e)
              | .ok _ => return none

def eventPayload (d : Delivery) (parsed : Parsed) (status : DeliveryStatus) (suppressed : Bool)
    (now : Time) : BounceEventPayload where
  deliveryID := d.id
  campaignID := d.campaignID
  status := status
  email := d.email
  emailNorm := d.emailNorm
  lane := d.lane
  occurredAt := now
  bounceType := parsed.type
  bounceSource := parsed.correlation.source
  smtpStatus := parsed.status
  diagnosticCode := parsed.diagnosticCode
  confidence := parsed.confidence
  suppressed := suppressed

def enqueueEvent (tenantID : Text) (d : Delivery) (parsed : Parsed) (type : Text)
    (status : DeliveryStatus) (suppressed : Bool) (a : Attempt) : Proc (Except Err Unit) :=
  Prog.invoke .enqueue ((Provider.forTenant tenantID).act (TenantStore.outboxEnqueue (fun _ => a.outboxID) [{
    type := type
    payload := .bounce (eventPayload d parsed status suppressed a.now)
    status := .pending
    createdAt := a.now
    nextAttemptAt := a.now }]))

def suppress (tenantID : Text) (settings : TenantSettings) (d : Delivery) (reason : SuppressionReason)
    (out : Outcome) (now : Time) : Proc (Outcome × Option Err) := do
  if d.lane = .probe then return (out, none)
  else if settings.suppressionEnabled then
    match ← Prog.invoke .upsert
      ((Provider.forTenant tenantID).act (TenantStore.suppressionUpsert (suppression d reason now))) with
    | .error e => return (out, some (within (text "bounce: suppress " ++ d.emailNorm) e))
    | .ok _ => return ({ out with suppressed := true }, ← proc.suppressPlatform tenantID d reason now)
  else return (out, ← proc.suppressPlatform tenantID d reason now)

def markedStatus (type : BounceType) : DeliveryStatus :=
  if type = .complaint then .complained else .bounced

def suppressionReason (type : BounceType) : SuppressionReason :=
  if type = .complaint then .complaint else .hardBounce

def eventType (type : BounceType) : Text :=
  if type = .complaint then text "delivery.complained" else text "delivery.bounced"

def mark (type : BounceType) : Text → Time → TenantStore → Except Err Bool × TenantStore :=
  if type = .complaint then TenantStore.deliveryMarkComplained else TenantStore.deliveryMarkBounced

/-- A recorded bounce that is not soft changes the delivery, and then
everything that follows from the change. -/
def transition (tenantID : Text) (settings : TenantSettings) (out : Outcome) (d : Delivery)
    (a : Attempt) : Proc (Outcome × Option Err) := do
  let type := out.parsed.type
  match ← Prog.invoke .mark ((Provider.forTenant tenantID).act (mark type d.id a.now)) with
  | .error e =>
      return (out, some (within (text "bounce: mark " ++ (markedStatus type).name ++ text " " ++ d.id) e))
  | .ok changed =>
      if !changed then return ({ out with skipped := some .notTransitioned }, none)
      else
        let out := { out with processed := true, newStatus := markedStatus type }
        match ← proc.suppress tenantID settings d (suppressionReason type) out a.now with
        | (out, some e) => return (out, some e)
        | (out, none) =>
            match ← enqueueEvent tenantID d out.parsed (eventType type) (markedStatus type) out.suppressed a with
            | .error e => return (out, some (within (text "bounce: enqueue " ++ eventType type) e))
            | .ok _ => return (out, none)

/-- What happens to a bounce whose delivery was found and whose correlation is
sound: it depends on the status the delivery has by now. -/
def handleVerified (tenantID : Text) (settings : TenantSettings) (out : Outcome) (msg : Message)
    (d : Delivery) (a : Attempt) : Proc (Outcome × Option Err) := do
  if d.status ≠ .sent then
    if d.status = .bounced ∨ d.status = .complained then
      if out.parsed.type = .soft then
        proc.record tenantID settings { out with skipped := some .softBounce } msg (some d) a
      -- A redelivered report: the first one is taken to have done the work.
      else return ({ out with skipped := some .alreadyTerminal }, none)
    else return ({ out with skipped := some .deliveryNotSent }, none)
  else match ← proc.record tenantID settings out msg (some d) a with
    | (out, some e) => return (out, some e)
    | (out, none) =>
        if out.parsed.type = .soft then return ({ out with skipped := some .softBounce }, none)
        else proc.transition tenantID settings out d a

def getDelivery (tenantID id : Text) : Proc (Except Err Delivery) :=
  Prog.query .getDelivery fun p => (p.tenants tenantID).deliveryGet id

def handleBounce (tenantID : Text) (settings : TenantSettings) (out : Outcome) (msg : Message)
    (a : Attempt) : Proc (Outcome × Option Err) := do
  let c := out.parsed.correlation
  if c.deliveryID = [] then
    proc.record tenantID settings { out with skipped := some .noCorrelation } msg none a
  else if c.tenantID ≠ [] ∧ c.tenantID ≠ tenantID then
    return ({ out with skipped := some .wrongTenant }, none)
  else match ← getDelivery tenantID c.deliveryID with
    | .error e =>
        if e.kind = .notFound then
          proc.record tenantID settings { out with skipped := some .unknownDelivery } msg none a
        else return (out, some (within (text "bounce: load delivery " ++ c.deliveryID) e))
    | .ok d =>
        if !c.verified then
          proc.record tenantID settings
            { out with unverified := true, skipped := some .unverified } msg (some d) a
        else proc.handleVerified tenantID settings out msg d a

def handle (tenantID : Text) (msg : Message) (a : Attempt) : Proc (Outcome × Option Err) := do
  match ← (loadTenantSettings Call.loadSettings tenantID a.key a.now).zoom (Provider.forTenant tenantID) with
  | .error e => return ({}, some (within (text "bounce: tenant settings") e))
  | .ok settings =>
      match proc.parseWithKeys msg.raw settings.tracking.signingKeys with
      | .error _ => return ({ skipped := some .notABounce }, none)
      | .ok parsed =>
          let out : Outcome := { parsed }
          if parsed.autoReply then return ({ out with skipped := some .autoReply }, none)
          else if !parsed.isBounce then return ({ out with skipped := some .notABounce }, none)
          else proc.handleBounce tenantID settings out msg a

end Processor

end Sendplane.Bounce
