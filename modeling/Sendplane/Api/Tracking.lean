import Sendplane.Memstore.Provider
import Sendplane.Tracking.Token

namespace Sendplane.Api

open Data Store Memstore Sendplane.Tracking

/-- The part of the tracking buffer that the handlers write to. -/
structure TrackingBuffer where
  buf : List TrackingEvent := []
  closed : Bool := false
  maxBuffer : Nat := 100000
  dropped : Nat := 0

def TrackingBuffer.record (b : TrackingBuffer) (newID : Text) (clock : Time) (ev : TrackingEvent) :
    TrackingBuffer :=
  let ev := { ev with
    id := if ev.id = [] then newID else ev.id
    createdAt := if ev.createdAt = 0 then truncateTime clock else ev.createdAt }
  if b.closed then { b with dropped := b.dropped + 1 }
  else
    -- A full buffer loses its oldest events.
    let excess := b.buf.length + 1 - b.maxBuffer
    { b with buf := b.buf.drop excess ++ [ev], dropped := b.dropped + excess }

structure ServerState where
  provider : Provider
  tracking : TrackingBuffer := {}

namespace ServerState

def tenant (tenantID : Text) : Lens ServerState TenantStore where
  get s := s.provider.tenants tenantID
  set part s := { s with provider := s.provider.put tenantID part }
  get_set part s := (Provider.forTenant tenantID).get_set part s.provider
  set_set part other s := by
    rw [ServerState.mk.injEq]
    exact ⟨(Provider.forTenant tenantID).set_set part other s.provider, rfl⟩
  set_get s := by
    cases s
    rw [ServerState.mk.injEq]
    exact ⟨(Provider.forTenant tenantID).set_get _, rfl⟩

end ServerState

/-- The public routes are not authenticated: the token says whose keys it is checked under. -/
structure Server where
  signer : Signer
  trimSpace : Text → Text
  toLower : Text → Text

/-- What a request brings along, what the rate limiter said about its address,
and what serving it takes from the clock and the random source. -/
structure TrackRequest where
  allowed : Bool
  token : Text
  u : Text := []
  ua : Text := []
  now : Time
  recordedAt : Time
  key : SigningKey := {}
  eventID : Text := []
  outboxID : Text := []

inductive TrackResponse where
  | tooManyRequests
  | badRequest
  | badPixel
  | pixel
  | redirect (location : Text)
  | ok
deriving DecidableEq

inductive TrackCall where
  | forTenant | loadSettings | getDelivery | buffer | upsert | enqueue

abbrev TrackProc := Prog TrackCall ServerState Err

inductive ResolveError where
  | token (e : TokenError)
  | store (e : Err)
  | otherRoute

/-- What a verified request resolved to; the delivery may be gone by now. -/
structure TrackCtx where
  tenantID : Text
  settings : TenantSettings
  payload : TokenPayload
  delivery : Option Delivery

def botWindow : Duration := 3000000000

def scannerUAs : List Text :=
  ["proofpoint", "barracuda", "mimecast", "symantec", "microsoft office", "bitdefender", "forcepoint",
    "trendmicro", "trend micro", "fireeye", "cloudmark", "sophos", "messagelabs", "gfi ", "spamtitan",
    "zscaler", "urldefense", "safelinks", "yandexbot", "googlebot", "bingbot", "slackbot", "twitterbot",
    "facebookexternalhit", "discordbot", "headlesschrome", "python-requests", "curl/", "wget/",
    "go-http-client", "apache-httpclient", "java/", "okhttp", "libwww-perl"].map text

def maxUABytes : Nat := 160

def eventRecipientUnsubscribed : Text := text "recipient.unsubscribed"

namespace Server

variable (srv : Server)

def summarizeUA (ua : Text) : Text :=
  (srv.trimSpace ua).take maxUABytes

def looksLikeBot (ua : Text) (sentAt time : Time) : Bool :=
  scannerUAs.any (fun s => (srv.toLower ua).tails.any s.isPrefixOf) ||
    (sentAt ≠ 0 && time - sentAt < botWindow && sentAt ≤ time)

def loadDelivery (tenantID id : Text) : TrackProc (Except Err (Option Delivery)) := do
  match ← Prog.query .getDelivery
    (fun s : ServerState => (s.provider.tenants tenantID).deliveryGet id) with
  | .ok d => return .ok (some d)
  | .error e => if e.kind = .notFound then return .ok none else return .error e

def verifyToken (req : TrackRequest) (tenantID : Text) (settings : TenantSettings) (kind : Kind)
    (dest : Text) : TrackProc (Except ResolveError TrackCtx) := do
  match srv.signer.verifyDest settings.tracking.signingKeys req.token dest with
  | .error e => return .error (.token e)
  | .ok payload =>
      if payload.kind ≠ kind then return .error .otherRoute
      else match ← loadDelivery tenantID payload.deliveryID with
        | .error e => return .error (.store e)
        | .ok delivery => return .ok { tenantID, settings, payload, delivery }

/-- The settings are loaded, and created if there are none, for the tenant that
the token names, before the token is checked. -/
def resolveToken (req : TrackRequest) (kind : Kind) (dest : Text) :
    TrackProc (Except ResolveError TrackCtx) := do
  match tenantOf req.token with
  | .error e => return .error (.token e)
  | .ok tenantID =>
      match ← Prog.query (β := Unit) .forTenant (fun _ : ServerState => .ok ()) with
      | .error e => return .error (.store e)
      | .ok _ =>
          match ← (loadTenantSettings TrackCall.loadSettings tenantID req.key req.now).zoom
            (ServerState.tenant tenantID) with
          | .error e => return .error (.store e)
          | .ok settings => srv.verifyToken req tenantID settings kind dest

def trackingEvent (tc : TrackCtx) (d : Delivery) (kind : TrackingKind) (req : TrackRequest) : TrackingEvent :=
  let ua := srv.summarizeUA req.ua
  { tenantID := tc.tenantID
    deliveryID := d.id
    campaignID := d.campaignID
    kind := kind
    linkNo := if kind = .opened then 0 else tc.payload.linkNo
    url := if kind = .opened then [] else tc.payload.dest
    userAgent := ua
    suspectedBot := kind ≠ .unsubscribed && srv.looksLikeBot ua d.sentAt req.recordedAt
    createdAt := req.recordedAt }

def record (tc : TrackCtx) (kind : TrackingKind) (req : TrackRequest) : TrackProc Unit :=
  match tc.delivery with
  | none => return
  | some d => do
      let _ ← Prog.invoke (β := Unit) .buffer fun s =>
        (.ok (), { s with
          tracking := s.tracking.record req.eventID req.recordedAt (srv.trackingEvent tc d kind req) })

def trackOpen (req : TrackRequest) : TrackProc TrackResponse := do
  if !req.allowed then return .tooManyRequests
  else match ← srv.resolveToken req .opened [] with
    | .error _ => return .badPixel
    | .ok tc =>
        if tc.settings.tracking.opens then srv.record tc .opened req
        return .pixel

def trackClick (req : TrackRequest) : TrackProc TrackResponse := do
  if !req.allowed then return .tooManyRequests
  else match ← srv.resolveToken req .click req.u with
    | .error _ => return .badRequest
    | .ok tc =>
        if tc.settings.tracking.clicks then srv.record tc .click req
        return .redirect req.u

def trackUnsubscribeClick (req : TrackRequest) : TrackProc TrackResponse := do
  if !req.allowed then return .tooManyRequests
  else match ← srv.resolveToken req .unsubscribe [] with
    | .error _ => return .badRequest
    | .ok tc =>
        if tc.payload.dest = [] then return .badRequest
        else
          srv.record tc .unsubscribeClicked req
          return .redirect tc.payload.dest

def emitUnsubscribed (tenantID : Text) (d : Delivery) (source : Text) (req : TrackRequest) :
    TrackProc (Except Err Unit) :=
  Prog.invoke .enqueue ((ServerState.tenant tenantID).act
    (TenantStore.outboxEnqueue (fun _ => req.outboxID) [{
      type := eventRecipientUnsubscribed
      payload := .unsubscribe {
        tenantID, campaignID := d.campaignID, deliveryID := d.id, email := d.email,
        emailNorm := d.emailNorm, source, occurredAt := req.recordedAt }
      createdAt := req.recordedAt
      nextAttemptAt := req.recordedAt }]))

/-- The failures past the record are only logged; the hook has no store effect. -/
def oneClickUnsubscribe (req : TrackRequest) : TrackProc TrackResponse := do
  if !req.allowed then return .tooManyRequests
  else match ← srv.resolveToken req .unsubscribe [] with
    | .error _ => return .badRequest
    | .ok tc =>
        srv.record tc .unsubscribed req
        match tc.delivery with
        | none => return .ok
        | some d =>
            if tc.settings.suppressionEnabled ∧ d.emailNorm ≠ [] then
              let _ ← Prog.invoke .upsert ((ServerState.tenant tc.tenantID).act
                (TenantStore.suppressionUpsert {
                  emailNorm := d.emailNorm, reason := .manual, sourceDeliveryID := d.id,
                  createdAt := req.recordedAt }))
            let _ ← emitUnsubscribed tc.tenantID d (text "one_click") req
            return .ok

end Server

inductive Route where
  | trackOpen | trackClick | trackUnsubscribeClick | oneClickUnsubscribe
deriving DecidableEq

def Route.dest (route : Route) (req : TrackRequest) : Text :=
  if route = .trackClick then req.u else []

def Server.serve (srv : Server) (req : TrackRequest) : Route → TrackProc TrackResponse
  | .trackOpen => srv.trackOpen req
  | .trackClick => srv.trackClick req
  | .trackUnsubscribeClick => srv.trackUnsubscribeClick req
  | .oneClickUnsubscribe => srv.oneClickUnsubscribe req

end Sendplane.Api
