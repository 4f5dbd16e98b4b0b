import Sendplane.Data.Encoding
import Sendplane.Memstore.DeliveryInsert
import Sendplane.Memstore.Provider
import Sendplane.Sender.Headers
import Sendplane.Store.Email

namespace Sendplane.Api

open Data Data.Strings Store Memstore
open Sender (HeaderError validateCustomHeader)

structure ApiError where
  status : Nat
  code : Text
  message : Text
deriving DecidableEq

inductive Failure where
  | api (e : ApiError)
  | store (e : Err)
deriving DecidableEq

def errInvalid (message : Text) : Failure :=
  .api ⟨422, text "validation_failed", message⟩

def maxTransactionalRecipients : Nat := 1000
def msgChunkCampaign : Text := text "_transactional"
def msgChunkPrefix : Text := text "msg:"

structure MessageRecipient where
  email : Text
  name : Text := []
  locale : Text := []
  vars : Vars := {}

structure Resolved where
  versionID : Text
  senderID : Text
  tenantVars : Vars := {}

/-- A request and what serving it takes from the clock and the random source.
`resolve` is what the lookups of the template and the sender and the policy hooks
answer on a store. -/
structure MessageRequest where
  recipients : List MessageRecipient
  headers : List (Text × Text) := []
  storedHeaders : Vars := {}
  defaultLocale : Text := []
  priority : Int := 0
  idempotencyKey : Text := []
  resolve : TenantStore → Except Failure Resolved
  settingsAt : Time := 0
  now : Time := 0
  newKey : SigningKey := {}
  newID : Nat → Text := fun _ => []

structure MessageResultItem where
  deliveryID : Text
  email : Text
  status : DeliveryStatus

structure MessageResult where
  versionID : Text
  deliveries : List MessageResultItem
  idempotentReplay : Bool := false

/-- The store calls of one POST of a message. -/
inductive MessageCall where
  | resolve | getChunk | loadSettings | isSuppressed | insertBatch | putChunk | getDelivery

abbrev MessageProc := Prog MessageCall TenantStore Err

def nameSpaceURL : Text :=
  [0x6b, 0xa7, 0xb8, 0x11, 0x9d, 0xad, 0x11, 0xd1, 0x80, 0xb4, 0x00, 0xc0, 0x4f, 0xd4, 0x30, 0xc8]

structure MessageServer extends MailSyntax where
  sha1 : Text → Text

namespace MessageServer

variable (srv : MessageServer) (tenantID : Text)

def transactionalID (key emailNorm : Text) (index : Nat) (newID : Text) : Text :=
  if key = [] then newID
  else
    let name := text "urn:sendplane:message:" ++ tenantID ++ text ":" ++ key ++ text ":" ++
      text (toString index) ++ text ":" ++ emailNorm
    Uuid.ofHash 5 (srv.sha1 (nameSpaceURL ++ name))

def customHeaders (headers : List (Text × Text)) : Except Failure Unit :=
  headers.forM fun (name, value) =>
    match validateCustomHeader srv.toUnicode name value with
    | .error e => .error (errInvalid (text "headers: " ++ e.message))
    | .ok () => .ok ()

section

variable (req : MessageRequest) (key : Text)

def suppressed (settings : TenantSettings) (norm : Text) : MessageProc (Except Err Bool) :=
  if settings.suppressionEnabled then Prog.query .isSuppressed (TenantStore.isSuppressed norm req.now)
  else return .ok false

def newDelivery (resolved : Resolved) (index : Nat) (r : MessageRecipient) (norm : Text) (listed : Bool) :
    Delivery where
  id := srv.transactionalID tenantID key norm index (req.newID index)
  tenantID := tenantID
  versionID := resolved.versionID
  senderID := resolved.senderID
  lane := .transactional
  priority := req.priority
  status := if listed then .suppressed else .queued
  email := r.email
  emailNorm := norm
  name := r.name
  locale := if r.locale = [] then req.defaultLocale else r.locale
  vars := r.vars
  tenantVars := resolved.tenantVars
  headers := req.storedHeaders
  nextAttemptAt := req.now
  createdAt := req.now
  updatedAt := req.now
  finishedAt := if listed then req.now else 0

/-- The loop over the recipients from number `index` on.  `seen` holds the
addresses before it. -/
def deliveriesFor (resolved : Resolved) (settings : TenantSettings) :
    Nat → List Text → List MessageRecipient → MessageProc (Except Failure (List Delivery))
  | _, _, [] => return .ok []
  | index, seen, r :: rest => do
      let place := text "to[" ++ text (toString index) ++ text "]"
      match srv.normalizeEmail r.email with
      | .error e => return .error (errInvalid (place ++ text ".email: " ++ e.message))
      | .ok norm =>
          if containsAny r.name (text "\r\n") then
            return .error (errInvalid (text "to[].name must not contain a line break"))
          else if norm ∈ seen then
            return .error (errInvalid (place ++ text " repeats the address " ++ norm))
          else match ← suppressed req settings norm with
            | .error e => return .error (.store e)
            | .ok listed =>
                match ← deliveriesFor resolved settings (index + 1) (norm :: seen) rest with
                | .error e => return .error e
                | .ok later =>
                    return .ok (srv.newDelivery tenantID req key resolved index r norm listed :: later)

def resultItem (d : Delivery) : MessageResultItem :=
  ⟨d.id, d.email, d.status⟩

/-- The row of a completed key holds counts only. -/
def recordKey (accepted : Nat) : MessageProc (Except Err Unit) :=
  if key = [] then return .ok ()
  else
    let chunk : RecipientChunk := {
      campaignID := msgChunkCampaign
      key := msgChunkPrefix ++ key
      state := .completed
      accepted := accepted
      createdAt := req.now
      updatedAt := req.now }
    Prog.invoke .putChunk (TenantStore.chunkPut chunk)

def acceptMessage (resolved : Resolved) : MessageProc (Except Failure MessageResult) := do
  match ← loadTenantSettings .loadSettings tenantID req.newKey req.settingsAt with
  | .error e => return .error (.store e)
  | .ok settings =>
      match ← srv.deliveriesFor tenantID req key resolved settings 0 [] req.recipients with
      | .error e => return .error e
      | .ok deliveries =>
          match ← Prog.invoke .insertBatch (TenantStore.deliveryInsertBatch req.newID deliveries) with
          | .error e => return .error (.store e)
          | .ok _ =>
              match ← recordKey req key deliveries.length with
              | .error e => return .error (.store e)
              | .ok () =>
                  return .ok { versionID := resolved.versionID, deliveries := deliveries.map resultItem }

/-- The replay loop; the version is that of the last delivery still stored. -/
def replayItems : Nat → Text → List MessageRecipient → MessageProc (Except Failure (Text × List MessageResultItem))
  | _, versionID, [] => return .ok (versionID, [])
  | index, versionID, r :: rest => do
      match srv.normalizeEmail r.email with
      | .error e =>
          return .error (errInvalid (text "to[" ++ text (toString index) ++ text "].email: " ++ e.message))
      | .ok norm =>
          let id := srv.transactionalID tenantID key norm index (req.newID index)
          match ← Prog.query .getDelivery (TenantStore.deliveryGet id) with
          | .ok d =>
              match ← replayItems (index + 1) d.versionID rest with
              | .error e => return .error e
              | .ok (versionID, items) => return .ok (versionID, ⟨id, r.email, d.status⟩ :: items)
          | .error e =>
              if e.kind ≠ .notFound then return .error (.store e)
              else match ← replayItems (index + 1) versionID rest with
                | .error e => return .error e
                | .ok (versionID, items) => return .ok (versionID, ⟨id, r.email, .queued⟩ :: items)

def replayMessage (versionID : Text) : MessageProc (Except Failure MessageResult) := do
  match ← srv.replayItems tenantID req key 0 versionID req.recipients with
  | .error e => return .error e
  | .ok (versionID, deliveries) => return .ok { versionID, deliveries, idempotentReplay := true }

def keyCompleted : MessageProc (Except Err Bool) :=
  if key = [] then return .ok false
  else do
    match ← Prog.query .getChunk (TenantStore.chunkGet msgChunkCampaign (msgChunkPrefix ++ key)) with
    | .ok prev => return .ok (prev.state = .completed)
    | .error e => if e.kind ≠ .notFound then return .error e else return .ok false

end

/-- One POST of a message. -/
def sendMessage (req : MessageRequest) : MessageProc (Except Failure MessageResult) := do
  if tenantID = systemTenantID then
    return .error (errInvalid (text "the system tenant cannot send a message: it is the operator's scope for " ++
      text "platform configuration and platform probe state, not a sending tenant"))
  else if req.recipients = [] then
    return .error (errInvalid (text "to must name at least one recipient"))
  else if req.recipients.length > maxTransactionalRecipients then
    return .error (errInvalid (text "to has " ++ text (toString req.recipients.length) ++
      text " recipients, the maximum is " ++ text (toString maxTransactionalRecipients)))
  else match srv.customHeaders req.headers with
    | .error e => return .error e
    | .ok () =>
        match ← Prog.query .resolve fun s => .ok (req.resolve s) with
        | .error e => return .error (.store e)
        | .ok (.error e) => return .error e
        | .ok (.ok resolved) =>
            let key := trimSpace req.idempotencyKey
            match ← keyCompleted key with
            | .error e => return .error (.store e)
            | .ok true => srv.replayMessage tenantID req key resolved.versionID
            | .ok false => srv.acceptMessage tenantID req key resolved

end MessageServer

end Sendplane.Api
