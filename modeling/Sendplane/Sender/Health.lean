import Sendplane.Memstore.Provider

namespace Sendplane.Sender

open Data Store Memstore

structure TransportHealth where
  failures : Int := 0
  status : TransportStatus := .healthy
  nextProbe : Time := 0
  rateLimits : List Time := []

/-- The circuits of one replica, one for each transport. -/
structure HealthTracker where
  threshold : Int := 3
  probeEvery : Duration := minute
  rateLimitThreshold : Nat := 3
  rateLimitWindow : Duration := minute
  transports : Table Text TransportHealth := ∅

def healthKey (tenantID transportID : Text) : Text :=
  tenantID ++ text "/" ++ transportID

namespace HealthTracker

variable (h : HealthTracker)

def state (key : Text) : TransportHealth :=
  (h.transports[key]?).getD {}

def put (key : Text) (th : TransportHealth) : HealthTracker :=
  { h with transports := h.transports.insert key th }

/-- An unhealthy transport is left alone until its probe is due. -/
def usable (key : Text) (now : Time) : Bool :=
  (h.state key).status ≠ .unhealthy || (h.state key).nextProbe ≤ now

def pruneRateLimits (times : List Time) (now : Time) (window : Duration) : List Time :=
  times.filter fun time => now - window ≤ time

/-- The status to persist, if the failure changes it. -/
def fail (key : Text) (errorClass : ErrorClass) (now : Time) : Option TransportStatus × HealthTracker :=
  let th := h.state key
  match errorClass with
  | .auth =>
      let th := { th with failures := th.failures + 1 }
      if th.status = .unhealthy then (none, h.put key { th with nextProbe := now + h.probeEvery })
      else if th.failures < h.threshold then (none, h.put key th)
      else (some .unhealthy, h.put key { th with status := .unhealthy, nextProbe := now + h.probeEvery })
  | .rateLimited =>
      let th := { th with rateLimits := pruneRateLimits th.rateLimits now h.rateLimitWindow ++ [now] }
      if th.status = .healthy ∧ th.rateLimits.length ≥ h.rateLimitThreshold then
        (some .cooldown, h.put key { th with status := .cooldown })
      else (none, h.put key th)
  | _ => (none, h.put key th)

/-- A cooled-down transport recovers only once its window is clear. -/
def success (key : Text) (now : Time) : Option TransportStatus × HealthTracker :=
  let th := { h.state key with failures := 0 }
  match th.status with
  | .healthy => (none, h.put key th)
  | .cooldown =>
      let th := { th with rateLimits := pruneRateLimits th.rateLimits now h.rateLimitWindow }
      if th.rateLimits ≠ [] then (none, h.put key th)
      else (some .healthy, h.put key { th with status := .healthy })
  | .unhealthy => (some .healthy, h.put key { th with status := .healthy })

end HealthTracker

/-- A shared transport has one rate and one circuit for everybody. -/
def limitScope (tenantID : Text) (tr : Transport) : Text :=
  if tr.shared then systemTenantID else tenantID

def sharedTransportKey (tenantID : Text) (tr : Transport) : Text :=
  healthKey (limitScope tenantID tr) tr.id

/-- The persisted status and this replica's circuit; an elapsed window of the
persisted status overrides both. -/
def transportUsable (h : HealthTracker) (tenantID : Text) (tr : Transport) (now : Time) : Bool :=
  if tr.status ≠ .healthy ∧ tr.statusUntil ≠ 0 ∧ tr.statusUntil < now then true
  else if tr.status = .unhealthy then false
  else h.usable (sharedTransportKey tenantID tr) now

def sharedSenderReason : Text := text "shared sender unavailable"

/-- What a tenant may be told about why a send could not go out. -/
def failureReason (shared : Bool) (reason : Text) : Text :=
  if !shared then reason else sharedSenderReason

end Sendplane.Sender
