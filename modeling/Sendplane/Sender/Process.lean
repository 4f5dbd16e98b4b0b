import Sendplane.Data.Cache
import Sendplane.Sender.Health
import Sendplane.Sender.Policy

namespace Sendplane.Sender.Process

open Data Store Memstore

/-- What is cached per tenant, one cache for each kind of row. -/
inductive Kind where
  | settings | campaign | version | sender | transport | domain
deriving DecidableEq

abbrev Kind.Row : Kind → Type
  | .settings => TenantSettings
  | .campaign => Campaign
  | .version => MessageVersion
  | .sender => Sender
  | .transport => Transport
  | .domain => SendingDomain

/-- Whose caches: those of a tenant that is served, or those of the view of the
system tenant that serves the rows of the platform to everybody. -/
inductive Holder where
  | tenant (id : Text)
  | platform
deriving DecidableEq

def Holder.tenantID : Holder → Text
  | .tenant id => id
  | .platform => systemTenantID

structure Envelope where
  transportID : Text
  source : Text
  rcpt : Text
  raw : Text
deriving DecidableEq

/-- The store, and what one replica keeps beside it. -/
structure World where
  provider : Provider
  caches : Holder → (kind : Kind) → Cache Text kind.Row := fun _ _ => ∅
  /-- Whether the view of the system tenant could be had; it is asked for once. -/
  platform : Option (Except Err Unit) := none
  health : HealthTracker := {}
  /-- Everything that was handed to an SMTP connection so far. -/
  handed : List Envelope := []

inductive Call where
  /-- On the state of the replica itself; these cannot fail. -/
  | memory
  | load (kind : Kind)
  | platformView | isSuppressed | platformSuppressed
  | transport | markSent

/-- The calls that go to the store fail when the store does. -/
def Call.Fault (call : Call) (e : Err) : Prop :=
  call ≠ .memory ∧ Outage e

abbrev Proc := Prog Call World Err

structure Config where
  workerID : Text
  tenantCacheTTL : Duration := 5000000000
  defaultRatePerSecond : Rat := 0
  rateLimitCap : Duration := 0
  authRetryAfter : Duration := 0
  transportProbeInterval : Duration := minute
  /-- The share of one tenant of a shared transport, from the catalog. -/
  perTenantRatePerSecond : Text → Rat := fun _ => 0
  toLower : Text → Text := id
  /-- The signing key that is generated if the settings have to be created. -/
  newKey : SigningKey := {}

section

variable (cfg : Config) (now : Time) (tenantID : Text)

/-- Versions are immutable and stay in their cache. -/
def Kind.ttl : Kind → Duration
  | .version => 0
  | _ => cfg.tenantCacheTTL

/-- The read that fills a cache; only that of the settings may also write. -/
def Kind.load (key : Text) (p : Provider) : (kind : Kind) → Except Err kind.Row × Provider
  | .settings =>
      let loaded := (loadTenantSettings () tenantID cfg.newKey now).exec (p.tenants tenantID)
      (loaded.1, p.put tenantID loaded.2)
  | .campaign => ((p.tenants tenantID).campaignGet key, p)
  | .version => (p.versionGet tenantID key, p)
  | .sender => (p.senderGet tenantID key, p)
  | .transport => (p.transportGet tenantID key, p)
  | .domain => (p.domainGet tenantID key, p)

def World.remember (w : World) (holder : Holder) (kind : Kind) (key : Text) (v : kind.Row) : World :=
  { w with
    caches := Function.update w.caches holder
      (Function.update (w.caches holder) kind ((w.caches holder kind).remember key v now)) }

/-- The cached row while it lives, and the stored one otherwise. -/
def World.get (holder : Holder) (kind : Kind) (key : Text) (w : World) : Except Err kind.Row × World :=
  match (w.caches holder kind).hit (kind.ttl cfg) key now with
  | some v => (.ok v, w)
  | none =>
      match kind.load cfg now holder.tenantID key w.provider with
      | (.error e, provider) => (.error e, { w with provider })
      | (.ok v, provider) => (.ok v, World.remember now { w with provider } holder kind key v)

def load (holder : Holder) (kind : Kind) (key : Text) : Proc (Except Err kind.Row) :=
  Prog.invoke (.load kind) (World.get cfg now holder kind key)

def tenantSettings : Proc (Except Err TenantSettings) :=
  load cfg now (.tenant tenantID) .settings []

def campaign (id : Text) : Proc (Except Err Campaign) :=
  load cfg now (.tenant tenantID) .campaign id

def version (id : Text) : Proc (Except Err MessageVersion) :=
  load cfg now (.tenant tenantID) .version id

def sender (id : Text) : Proc (Except Err Sender) :=
  load cfg now (.tenant tenantID) .sender id

def transport (holder : Holder) (id : Text) : Proc (Except Err Transport) :=
  load cfg now holder .transport id

def domain (holder : Holder) (id : Text) : Proc (Except Err (Option SendingDomain)) := do
  if id = [] then return .ok none
  else match ← load cfg now holder .domain id with
    | .error e => return .error e
    | .ok row => return .ok (some row)

/-- The view of the system tenant is asked for once, and a failure to get it is
remembered for good. -/
def sysState : Proc (Except Err Unit) := do
  match ← Prog.query .memory fun w : World => Except.ok w.platform with
  | .ok (some known) => return known
  | _ =>
      let view ← Prog.query .platformView fun _ : World => Except.ok ()
      let _ ← Prog.invoke .memory fun w : World => (Except.ok (), { w with platform := some view })
      return view

def configState (id : Text) : Proc (Except Err Holder) := do
  if !isPlatformID id ∨ tenantID = systemTenantID then return .ok (.tenant tenantID)
  else match ← sysState with
    | .error e => return .error e
    | .ok _ => return .ok .platform

def transportFor (id : Text) : Proc (Except Err Transport) := do
  match ← configState tenantID id with
  | .error e => return .error e
  | .ok holder => transport cfg now holder id

def domainFor (id : Text) : Proc (Except Err (Option SendingDomain)) := do
  match ← configState tenantID id with
  | .error e => return .error e
  | .ok holder => domain cfg now holder id

end

structure OutboundMessage where
  tenantID : Text
  deliveryID : Text
  campaignID : Text
  versionID : Text
  senderID : Text
  lane : Lane
  fromName : Text
  source : Text
  replyTo : Text
  subject : Text
  html : Text
  body : Text
  headers : Vars
  unsubscribeURL : Text

structure UnsubscribeLinks where
  body : Text := []
  header : Text := []
  oneClick : Bool := false

structure MessageInput where
  msg : OutboundMessage
  messageID : Text
  attemptNo : Int
  date : Time
  listUnsubscribe : Text
  oneClick : Bool
  dkim : Option Text

inductive HookError where
  | skip
  | other (message : Text)

structure Key where
  name : Text
  rate : Rat

structure Content where
  settings : TenantSettings
  campaign : Option Campaign
  version : MessageVersion

structure Route where
  sender : Sender
  transport : Transport
  domain : Option SendingDomain

/-- What everything outside the store and the replica answers in one run, and
the times at which the run looks at the clock. -/
structure Outside where
  clock : Time
  sendStart : Time
  finished : Time
  rand : Rat
  cancelled : Bool
  renderMessage : Content → Sender → Delivery → Except Text (OutboundMessage × UnsubscribeLinks)
  beforeSend : Option (OutboundMessage → Except HookError OutboundMessage)
  dkimFor : SendingDomain → Option Text
  buildMessage : MessageInput → Except Text Text
  verpAddress : Text → Text → Text → Text
  wait : List Key → Option Text
  decrypt : Text → Except Text Text
  connect : Transport → Text → Option (Text × Failure)
  send : Envelope → Failure

section

variable (cfg : Config) (now : Time) (o : Outside) (tenantID : Text) (d : Delivery)

def deferral (what message : Text) : DeliveryResult :=
  internalDefer cfg.workerID o.clock d what message

def unusable (what : Text) (e : Err) : DeliveryResult :=
  configResult cfg.workerID o.clock d what e

def campaignOf : Proc (Except Err (Option Campaign)) := do
  if d.campaignID = [] then return .ok none
  else match ← campaign cfg now tenantID d.campaignID with
    | .error e => return .error e
    | .ok c => return .ok (some c)

/-- A campaign delivery may leave its version to the campaign. -/
def versionID (campaign : Option Campaign) : Text :=
  if d.versionID = [] then (campaign.map Campaign.versionID).getD [] else d.versionID

def content : Proc (Except DeliveryResult Content) := do
  match ← tenantSettings cfg now tenantID with
  | .error e => return .error (deferral cfg o d (text "tenant settings") e.message)
  | .ok settings =>
      match ← campaignOf cfg now tenantID d with
      | .error e => return .error (unusable cfg o d (text "campaign") e)
      | .ok campaign =>
          match ← version cfg now tenantID (versionID d campaign) with
          | .error e => return .error (unusable cfg o d (text "message version") e)
          | .ok version => return .ok { settings, campaign, version }

/-- A domain that does not exist is the same as none. -/
def route : Proc (Except DeliveryResult Route) := do
  match ← sender cfg now tenantID d.senderID with
  | .error e => return .error (unusable cfg o d (text "sender") e)
  | .ok sender =>
      match ← transportFor cfg now tenantID sender.transportID with
      | .error e => return .error (unusable cfg o d (text "transport") e)
      | .ok transport =>
          match ← domainFor cfg now tenantID sender.domainID with
          | .error e =>
              if e.kind ≠ .notFound then return .error (deferral cfg o d (text "sending domain") e.message)
              else return .ok { sender, transport, domain := none }
          | .ok domain => return .ok { sender, transport, domain }

def platformSuppressed (tr : Transport) : Proc (Except Err Bool) := do
  if !tr.shared then return .ok false
  else match ← sysState with
    | .error e => return .error e
    | .ok _ =>
        Prog.query .platformSuppressed fun w : World =>
          (w.provider.tenants systemTenantID).isSuppressed d.emailNorm now

def suppression (settings : TenantSettings) (tr : Transport) : Proc (Except DeliveryResult Bool) := do
  if settings.suppressionEnabled ∧ d.lane ≠ .probe then
    match ← Prog.query .isSuppressed fun w : World =>
      (w.provider.tenants tenantID).isSuppressed d.emailNorm now with
    | .error e => return .error (deferral cfg o d (text "suppression lookup") e.message)
    | .ok true => return .ok true
    | .ok false =>
        match ← platformSuppressed now d tr with
        | .error e => return .error (deferral cfg o d (text "platform suppression lookup") e.message)
        | .ok suppressed => return .ok suppressed
  else return .ok false

def withStatus (status : DeliveryStatus) (error : Text) : DeliveryResult where
  deliveryID := d.id
  leaseOwner := cfg.workerID
  newStatus := status
  error := error

def policy (settings : TenantSettings) : Policy :=
  let p : Policy := { retry := settings.retry, rand := o.rand }
  let p := if cfg.rateLimitCap > 0 then { p with rateLimitCap := cfg.rateLimitCap } else p
  if cfg.authRetryAfter > 0 then { p with authRetryAfter := cfg.authRetryAfter } else p

def domainOf (addr : Text) : Text :=
  let domain := addr.reverse.takeWhile (· ≠ 64) |>.reverse
  if addr.contains 64 ∧ domain ≠ [] then cfg.toLower domain else []

def messageID (msg : OutboundMessage) : Text :=
  d.id ++ text "@" ++ domainOf cfg msg.source

def messageInput (r : Route) (msg : OutboundMessage) (unsub : UnsubscribeLinks) : MessageInput where
  msg := msg
  messageID := messageID cfg d msg
  attemptNo := d.attemptCount + 1
  date := now
  listUnsubscribe := unsub.header
  oneClick := unsub.oneClick
  dkim := r.domain.bind fun dom =>
    if dom.dkimSelector = [] ∨ dom.dkimPrivateKey = [] then none else o.dkimFor dom

/-- The newest usable key; of two as new the one with the greater ID. -/
def selectKey (keys : List SigningKey) : Option SigningKey :=
  keys.foldl (fun best k =>
    if k.kid = [] ∨ k.secret = [] then best
    else match best with
      | none => some k
      | some b =>
          if k.createdAt > b.createdAt ∨ (k.createdAt = b.createdAt ∧ k.kid > b.kid) then some k else best) none

/-- Bounces come back to an address that names the delivery, if they can. -/
def returnPath (c : Content) (r : Route) (msg : OutboundMessage) : Text :=
  match selectKey c.settings.tracking.signingKeys, r.domain with
  | some key, some dom =>
      let v := o.verpAddress dom.returnPathDomain d.id key.secret
      if v ≠ [] then v else msg.source
  | _, _ => msg.source

def limiterKeys (tr : Transport) : List Key :=
  let rate := if tr.ratePerSecond ≤ 0 then cfg.defaultRatePerSecond else tr.ratePerSecond
  let rcptDomain := domainOf cfg d.email
  let transportKey := sharedTransportKey tenantID tr
  let perTenant := if !tr.shared then 0 else cfg.perTenantRatePerSecond tr.id
  [⟨transportKey, rate⟩, ⟨transportKey ++ text "|" ++ rcptDomain, (tr.domainRatePerSecond.lookup rcptDomain).getD 0⟩] ++
    if perTenant > 0 then [⟨transportKey ++ text "|tenant|" ++ tenantID, perTenant⟩] else []

def password (tr : Transport) : Except Text Text :=
  if tr.password = [] then .ok [] else o.decrypt tr.password

def statusUntil (status : TransportStatus) : Time :=
  if status = .healthy then 0 else o.finished + cfg.transportProbeInterval

def invalidate (holder : Holder) (id : Text) (w : World) : World :=
  { w with
    caches := Function.update w.caches holder
      (Function.update (w.caches holder) .transport ((w.caches holder .transport).erase id)) }

/-- One turn of the loop that writes the status: whether it is over. -/
def writeStatus (holder : Holder) (id : Text) (status : TransportStatus) (reason : Text) : Proc Bool := do
  match ← Prog.query .transport fun w : World => w.provider.transportGet holder.tenantID id with
  | .error _ => return true
  | .ok tr =>
      let expiry := truncateTime (statusUntil cfg o status)
      if tr.status = status ∧ tr.statusUntil = expiry then return true
      else
        let written ← Prog.invoke .transport fun w : World =>
          let (reply, provider) := w.provider.transportUpdate holder.tenantID
            { tr with status, statusReason := reason, statusChangedAt := o.clock, statusUntil := expiry }
          (reply, { w with provider })
        let _ ← Prog.invoke .memory fun w : World =>
          (Except.ok (), invalidate (.tenant tenantID) id (invalidate holder id w))
        return written.isOk

/-- A concurrent edit is tried again once; that the status could not be
recorded is only logged. -/
def setTransportStatus (tr : Transport) (status : TransportStatus) (reason : Text) : Proc Unit := do
  match ← configState tenantID tr.id with
  | .error _ => return
  | .ok holder =>
      if ← writeStatus cfg o tenantID holder tr.id status reason then return
      else
        let _ ← writeStatus cfg o tenantID holder tr.id status reason
        return

/-- The outcome moves the circuit of the transport, whose new status is
recorded. -/
def recordHealth (tr : Transport) (f : Failure) : Proc Unit := do
  let key := sharedTransportKey tenantID tr
  let change (move : HealthTracker → Option TransportStatus × HealthTracker) (reason : Text) : Proc Unit := do
    match ← Prog.invoke .memory fun w : World =>
      let (status, health) := move w.health
      (Except.ok status, { w with health }) with
    | .ok (some status) => setTransportStatus cfg o tenantID tr status reason
    | _ => return
  match f.errorClass with
  | .none => change (fun h => h.success key o.finished) (text "delivery succeeded")
  | .rateLimited | .auth => change (fun h => h.fail key f.errorClass o.finished) f.message
  | _ => return

/-- The classified outcome, or the result if there was none to classify. -/
def transmit (tr : Transport) (e : Envelope) : Proc (Except DeliveryResult Failure) := do
  match password o tr with
  | .error message => return .error (deferral cfg o d (text "transport password") message)
  | .ok password =>
      match o.connect tr password with
      | some (message, f) =>
          if o.cancelled then return .error (deferral cfg o d (text "connect") message)
          else return .ok f
      | none =>
          let _ ← Prog.invoke .memory fun w : World => (Except.ok (), { w with handed := w.handed ++ [e] })
          return .ok (o.send e)

def attemptResult (c : Content) (tr : Transport) (messageID : Text) (f : Failure) : DeliveryResult :=
  let res := decideResult cfg.workerID (policy cfg o c.settings) d f o.finished tr.id
  { res with
    messageID
    attempt := res.attempt.map fun a => { a with startedAt := o.sendStart, finishedAt := o.finished } }

/-- A success is recorded at once; if the lease is lost, nothing is committed. -/
def markSent (messageID : Text) (res : DeliveryResult) : Proc DeliveryResult := do
  match ← Prog.invoke .markSent fun w : World =>
    let (reply, s) := (w.provider.tenants tenantID).deliveryMarkSent d.id cfg.workerID messageID o.finished
    (reply, { w with provider := w.provider.put tenantID s }) with
  | .ok _ => return res
  | .error e => if e.kind = .leaseLost then return {} else return res

def deliver (c : Content) (r : Route) (msg : OutboundMessage) (raw : Text) : Proc DeliveryResult := do
  match o.wait (limiterKeys cfg tenantID d r.transport) with
  | some message => return deferral cfg o d (text "rate limiter") message
  | none =>
      match ← transmit cfg o d r.transport ⟨r.transport.id, returnPath o d c r msg, d.email, raw⟩ with
      | .error res => return res
      | .ok f =>
          recordHealth cfg o tenantID r.transport f
          let res := attemptResult cfg o d c r.transport (messageID cfg d msg) f
          if f.errorClass = .none then markSent cfg o tenantID d (messageID cfg d msg) res
          else return res

/-- The hook may change, skip or refuse the message. -/
def hooked (c : Content) (tr : Transport) (msg : OutboundMessage) : Except DeliveryResult OutboundMessage :=
  match o.beforeSend with
  | none => .ok msg
  | some hook =>
      match hook msg with
      | .ok msg => .ok msg
      | .error .skip => .error (withStatus cfg d .suppressed (text "skipped by BeforeSend"))
      | .error (.other message) =>
          .error (decideResult cfg.workerID (policy cfg o c.settings) d
            { errorClass := .transient, message := text "BeforeSend: " ++ message } now tr.id)

def prepared (c : Content) (r : Route) : Except DeliveryResult (OutboundMessage × Text) := do
  match o.renderMessage c r.sender d with
  | .error message =>
      if o.cancelled then .error (deferral cfg o d (text "render") message)
      else .error (failResult cfg.workerID d .permanent 0 message now)
  | .ok (msg, unsub) =>
      let msg ← hooked cfg now o d c r.transport msg
      match o.buildMessage (messageInput cfg now o d r msg unsub) with
      | .error message => .error (failResult cfg.workerID d .permanent 0 message now)
      | .ok raw => .ok (msg, raw)

def attempt (c : Content) (r : Route) : Proc DeliveryResult := do
  match ← Prog.query .memory fun w : World => Except.ok (transportUsable w.health tenantID r.transport now) with
  | .ok true =>
      match prepared cfg now o d c r with
      | .error res => return res
      | .ok (msg, raw) => deliver cfg o tenantID d c r msg raw
  | _ =>
      return { withStatus cfg d .queued (failureReason r.transport.shared (text "transport is unhealthy")) with
        nextAttemptAt := now + (policy cfg o c.settings).authRetryAfter
        errorClass := .auth }

def process : Proc DeliveryResult := do
  match ← content cfg now o tenantID d with
  | .error res => return res
  | .ok c =>
      match ← route cfg now o tenantID d with
      | .error res => return res
      | .ok r =>
          match ← suppression cfg now o tenantID d c.settings r.transport with
          | .error res => return res
          | .ok true => return withStatus cfg d .suppressed (text "address is suppressed")
          | .ok false => attempt cfg now o tenantID d c r

end

end Sendplane.Sender.Process
