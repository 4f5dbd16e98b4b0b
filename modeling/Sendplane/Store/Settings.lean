import Sendplane.Store.Basic

namespace Sendplane.Store

inductive UnsubscribeMode where
  | sendplane | host | none
deriving DecidableEq, Inhabited

structure RetryPolicy where
  backoff : List Duration := []
  maxAttempts : Int := 0

structure SigningKey where
  kid : Text := []
  secret : Text := []
  createdAt : Time := 0
deriving DecidableEq

structure TrackingConfig where
  domain : Text := []
  opens : Bool := false
  clicks : Bool := false
  signingKeys : List SigningKey := []

structure TenantSettings where
  tenantID : Text := []
  retry : RetryPolicy := {}
  retentionDays : Int := 0
  suppressionEnabled : Bool := false
  bounceRetainRaw : Bool := false
  unsubscribeMode : UnsubscribeMode := .none
  unsubscribeURLTemplate : Text := []
  unsubscribeOneClick : Bool := false
  defaultLocale : Text := []
  tracking : TrackingConfig := {}
  /-- The fields whose value came from the configuration of the platform. -/
  platformDefaults : List Text := []
  eventTypes : List Text := []
  version : Int := 0
  createdAt : Time := 0
  updatedAt : Time := 0

def settingTrackingDomain : Text := text "tracking.domain"
def settingUnsubscribeURLTemplate : Text := text "unsubscribe_url_template"

def TenantSettings.fromPlatform (s : TenantSettings) (field : Text) : Bool :=
  s.platformDefaults.contains field

/-- The events a tenant without a subscription of its own does not get. -/
def defaultOffEventTypes : List Text :=
  [text "delivery.sent", text "delivery.opened", text "delivery.clicked"]

def TenantSettings.subscribedTo (s : TenantSettings) (type : Text) : Bool :=
  if s.eventTypes.isEmpty then !defaultOffEventTypes.contains type else s.eventTypes.contains type

def minute : Duration := 60000000000
def hour : Duration := 3600000000000

/-- The row that the first access creates; `key` is freshly generated. -/
def defaultTenantSettings (tenantID : Text) (key : SigningKey) (now : Time) : TenantSettings where
  tenantID := tenantID
  retry := { backoff := [minute, 5 * minute, 15 * minute, hour, 4 * hour, 12 * hour], maxAttempts := 6 }
  retentionDays := 90
  suppressionEnabled := true
  unsubscribeMode := .sendplane
  defaultLocale := text "en"
  tracking := {
    opens := true, clicks := true
    signingKeys := [{ key with createdAt := truncateTime now }] }
  createdAt := now
  updatedAt := now

end Sendplane.Store
