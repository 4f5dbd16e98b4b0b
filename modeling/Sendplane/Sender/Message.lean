import Sendplane.Render.Engine
import Sendplane.Sender.Headers
import Sendplane.Sender.Process
import Sendplane.Store.Email
import Sendplane.Tracking.Token

namespace Sendplane.Sender.Message

open Data Data.Strings Store Sendplane.Tracking
open Sendplane.Render (Output)
open Sender.Process (HookError UnsubscribeLinks selectKey)

structure RecipientContext where
  tenantID : Text := []
  campaignID : Text := []
  deliveryID : Text := []
  email : Text := []
  emailNorm : Text := []
  name : Text := []
  locale : Text := []
  vars : Vars := {}

/-- A rendered message, as a hook gets and leaves it. -/
structure OutboundMessage where
  tenantID : Text := []
  deliveryID : Text := []
  campaignID : Text := []
  versionID : Text := []
  senderID : Text := []
  lane : Lane := .bulk
  recipient : RecipientContext := {}
  fromName : Text := []
  source : Text := []
  replyTo : Text := []
  subject : Text := []
  html : Text := []
  body : Text := []
  headers : Table Text Text := ∅
  unsubscribeURL : Text := []

/-- What a field is set from; the writer formats it. -/
inductive FieldValue where
  | text (value : Text)
  | address (name email : Text)
  | date (moment : Option Time)
deriving DecidableEq

structure Field where
  name : Text
  value : FieldValue
deriving DecidableEq

inductive ContentType where
  | textPlain | textHTML

/-- The MIME writer and the signer of the domain. -/
structure MailWriter where
  address : (name email : Text) → Option Text
  writeTo : List Field → List (ContentType × Text) → Except Text Text
  signDKIM : (key raw : Text) → Except Text Text

/-- What the sender gets from its surroundings. -/
structure Composer extends MailSyntax, MailWriter where
  signer : Signer
  stringVar : Vars → Text → Option Text
  headersOf : Vars → Table Text Text
  /-- The URL template of the tenant, parsed and rendered for the delivery. -/
  urlTemplate : Text → Delivery → Option Campaign → Except Text Text
  unsubscribeHook : Option (RecipientContext → Except Text Text)
  beforeSend : Option (OutboundMessage → Except HookError OutboundMessage)

section Compose

variable (c : Composer) (settings : TenantSettings) (tenantID : Text) (d : Delivery)

def renderUnsubscribeTemplate (tpl : Text) (campaign : Option Campaign) : Except Text Text :=
  match c.urlTemplate tpl d campaign with
  | .error detail => .error (text "sender: unsubscribe url template: " ++ detail)
  | .ok out =>
      let url := trimSpace out
      if containsAny url (text "\r\n") then .error (HeaderError.injection (text "unsubscribe url")).message
      else .ok url

/-- The recipient's own URL, then the template of the tenant, then the hook. -/
def unsubscribeDest (campaign : Option Campaign) (rc : RecipientContext) : Except Text Text := do
  if settings.unsubscribeMode = .none then return []
  if d.unsubscribeURL ≠ [] then return d.unsubscribeURL
  let own := (c.stringVar d.vars (text "unsubscribe_url")).getD []
  if own ≠ [] then return own
  let tpl := trimSpace settings.unsubscribeURLTemplate
  let url ← if tpl ≠ [] then renderUnsubscribeTemplate c d tpl campaign else .ok []
  if url ≠ [] then return url
  match c.unsubscribeHook with
  | some hook => hook rc
  | none => return []

def unsubscribeLinks (dest : Text) (key : Option SigningKey) : UnsubscribeLinks :=
  match settings.unsubscribeMode with
  | .sendplane =>
      if dest = [] then {}
      else
        let u := match key with
          | some key =>
              if settings.tracking.domain = [] then []
              else unsubscribeURL settings.tracking.domain (c.signer.sign key.kid key.secret
                { tenantID, deliveryID := d.id, kind := .unsubscribe, linkNo := 0, dest })
          | none => []
        if u ≠ [] then { body := u, header := u, oneClick := (text "https://").isPrefixOf u }
        -- No tracking domain or no key: the URL of the host, without one click.
        else { body := dest, header := dest }
  | .host =>
      if dest = [] then {}
      else {
        body := dest, header := dest
        oneClick := settings.unsubscribeOneClick && (text "https://").isPrefixOf dest }
  | .none => {}

/-- The headers of the request, and the probe token if the variables have one. -/
def outboundHeaders : Table Text Text :=
  match c.stringVar d.vars (text "probe_token") with
  | some token => if token = [] then c.headersOf d.headers else (c.headersOf d.headers).insert headerProbe token
  | none => c.headersOf d.headers

structure Identity where
  name : Text := []
  email : Text := []
  replyTo : Text := []

/-- What renders a delivery: its version, its sender's identity and the parts,
given the unsubscribe URL. -/
structure Rendering where
  campaign : Option Campaign := none
  versionID : Text := []
  identity : Identity := {}
  parts : Text → Except Text Output

/-- A probe takes no part in tracking or unsubscribing. -/
def linksFor (r : Rendering) (rc : RecipientContext) : Except Text UnsubscribeLinks :=
  if d.lane = .probe then .ok {}
  else do
    let dest ← unsubscribeDest c settings d r.campaign rc
    return unsubscribeLinks c settings tenantID d dest (selectKey settings.tracking.signingKeys)

def recipientContext : RecipientContext where
  tenantID := tenantID
  campaignID := d.campaignID
  deliveryID := d.id
  email := d.email
  emailNorm := d.emailNorm
  name := d.name
  locale := d.locale
  vars := d.vars

def renderMessage (r : Rendering) : Except Text (OutboundMessage × UnsubscribeLinks) := do
  let rc := recipientContext tenantID d
  let unsub ← linksFor c settings tenantID d r rc
  let out ← r.parts unsub.body
  return ({
    tenantID, deliveryID := d.id, campaignID := d.campaignID, versionID := r.versionID, senderID := d.senderID
    lane := d.lane, recipient := rc
    fromName := r.identity.name, source := r.identity.email, replyTo := r.identity.replyTo
    subject := out.subject, html := out.html, body := out.text
    headers := outboundHeaders c d, unsubscribeURL := unsub.body }, unsub)

end Compose

section Build

variable (c : Composer)

def checkLine (name value : Text) : Except HeaderError Unit :=
  if containsAny value (text "\r\n") then .error (.injection (name ++ text " contains CR or LF")) else .ok ()

def checkAddress (required : Bool) (name value : Text) : Except HeaderError Unit :=
  if value = [] then
    if required then .error (.injection (name ++ text " is empty")) else .ok ()
  else if containsAny value (text "\r\n") then .error (.injection (name ++ text " contains CR or LF"))
  else match c.parseAddress value with
    | .error detail => .error (.injection (name ++ text " " ++ c.quote value ++ text ": " ++ detail))
    | .ok _ => .ok ()

/-- Runs after the hook.  The source goes through the headers in no fixed order. -/
def validateOutbound (m : OutboundMessage) : Except HeaderError Unit := do
  checkLine (text "subject") m.subject
  checkLine (text "from name") m.fromName
  checkLine (text "recipient name") m.recipient.name
  checkLine (text "unsubscribe url") m.unsubscribeURL
  checkAddress c true (text "from") m.source
  checkAddress c false (text "reply-to") m.replyTo
  checkAddress c true (text "to") m.recipient.email
  m.headers.toList.forM fun (name, value) => validateCustomHeader c.toUnicode name value

structure MessageInput where
  msg : OutboundMessage
  messageID : Text
  attemptNo : Int
  date : Time
  listUnsubscribe : Text := []
  oneClick : Bool := false
  dkim : Option Text := none

/-- The fields the sender sets itself, in the order in which it does. -/
def senderFields (input : MessageInput) : List Field :=
  let m := input.msg
  [⟨text "Date", .date (if input.date = 0 then none else some input.date)⟩, ⟨text "From", .address m.fromName m.source⟩,
    ⟨text "To", .address m.recipient.name m.recipient.email⟩] ++
  (if m.replyTo ≠ [] then [⟨text "Reply-To", .address [] m.replyTo⟩] else []) ++
  [⟨text "Subject", .text m.subject⟩, ⟨text "Message-ID", .text input.messageID⟩,
    ⟨headerSendplaneID, .text (m.tenantID ++ text "/" ++ m.deliveryID)⟩,
    ⟨headerAttempt, .text (itoa input.attemptNo)⟩] ++
  (if m.lane = .bulk then
    [⟨text "Precedence", .text (text "bulk")⟩, ⟨text "X-Auto-Response-Suppress", .text (text "All")⟩] else []) ++
  if input.listUnsubscribe ≠ [] then
    ⟨text "List-Unsubscribe", .text input.listUnsubscribe⟩ ::
      if input.oneClick then [⟨text "List-Unsubscribe-Post", .text (text "List-Unsubscribe=One-Click")⟩] else []
  else []

def customFields (m : OutboundMessage) : List Field :=
  m.headers.toList.map fun (name, value) => ⟨name, .text value⟩

def headerFields (input : MessageInput) : List Field :=
  senderFields input ++ customFields input.msg

def bodyParts (m : OutboundMessage) : List (ContentType × Text) :=
  if trimSpace m.body ≠ [] ∧ trimSpace m.html ≠ [] then [(.textPlain, m.body), (.textHTML, m.html)]
  else if trimSpace m.html ≠ [] then [(.textHTML, m.html)]
  else [(.textPlain, m.body)]

def refused (field : Text) : Option Text → Except Text Unit
  | some detail => .error (text "sender: " ++ field ++ text ": " ++ detail)
  | none => .ok ()

def buildMessage (input : MessageInput) : Except Text Text := do
  let m := input.msg
  if trimSpace m.html = [] ∧ trimSpace m.body = [] then throw (text "sender: message has no body")
  match validateOutbound c m with
  | .error e => throw e.message
  | .ok () => pure ()
  refused (text "from") (c.address m.fromName m.source)
  refused (text "to") (c.address m.recipient.name m.recipient.email)
  if m.replyTo ≠ [] then refused (text "reply-to") (c.address [] m.replyTo)
  match c.writeTo (headerFields input) (bodyParts m) with
  | .error detail => throw (text "sender: write message: " ++ detail)
  | .ok raw =>
      match input.dkim with
      | none => return raw
      | some key =>
          match c.signDKIM key raw with
          | .error detail => throw (text "sender: dkim sign: " ++ detail)
          | .ok signed => return signed

def domainOf (addr : Text) : Text :=
  match cutLast 64 addr with
  | some (_, domain) => if domain ≠ [] then c.toLower domain else []
  | none => []

def hooked (msg : OutboundMessage) : Except HookError OutboundMessage :=
  match c.beforeSend with
  | none => .ok msg
  | some hook => hook msg

def inputFor (now : Time) (d : Delivery) (dkim : Option Text) (msg : OutboundMessage) (unsub : UnsubscribeLinks) :
    MessageInput where
  msg := msg
  messageID := d.id ++ text "@" ++ domainOf c msg.source
  attemptNo := d.attemptCount + 1
  date := now
  listUnsubscribe := unsub.header
  oneClick := unsub.oneClick
  dkim := dkim

inductive ComposeError where
  | render (message : Text)
  | hook (e : HookError)

/-- From the delivery to the input of the assembly: render, then the hook. -/
def messageFor (settings : TenantSettings) (tenantID : Text) (now : Time) (d : Delivery) (r : Rendering)
    (dkim : Option Text) : Except ComposeError MessageInput :=
  match renderMessage c settings tenantID d r with
  | .error message => .error (.render message)
  | .ok (msg, unsub) =>
      match hooked c msg with
      | .error e => .error (.hook e)
      | .ok msg => .ok (inputFor c now d dkim msg unsub)

end Build

end Sendplane.Sender.Message
