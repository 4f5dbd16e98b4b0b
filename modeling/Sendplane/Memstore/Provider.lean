import Sendplane.Memstore.Bounce
import Sendplane.Memstore.Settings

namespace Sendplane.Memstore

open Data Store

def systemTenantID : Text := text "_system"

def platformIDPrefix : Text := text "sys:"

def isPlatformID (id : Text) : Bool :=
  platformIDPrefix.isPrefixOf id

/-- Shared resources are served as virtual rows; only their state is stored. -/
structure Provider where
  platformTransports : List Transport := []
  platformSenders : List Sender := []
  platformDomains : List SendingDomain := []
  tenants : Text → TenantStore

namespace Provider

def put (tenantID : Text) (s : TenantStore) (p : Provider) : Provider :=
  { p with tenants := Function.update p.tenants tenantID s }

def forTenant (tenantID : Text) : Lens Provider TenantStore where
  get p := p.tenants tenantID
  set := put tenantID
  get_set _ _ := Function.update_self ..
  set_set _ _ _ := by simp only [put, Function.update_idem]
  set_get p := by simp only [put, Function.update_eq_self]

@[simp] theorem forTenant_get (tenantID : Text) (p : Provider) :
    (forTenant tenantID).get p = p.tenants tenantID := rfl

@[simp] theorem forTenant_set (p : Provider) : (forTenant tenantID).set s p = p.put tenantID s := rfl

@[simp] theorem put_same (tenantID : Text) (s : TenantStore) (p : Provider) : (p.put tenantID s).tenants tenantID = s :=
  Function.update_self ..

theorem put_get (tenantID other : Text) (s : TenantStore) (p : Provider) :
    (p.put tenantID s).tenants other = if other = tenantID then s else p.tenants other := by
  simp [put, Function.update_apply]

/-- The tenant that has the delivery.  `order` lists the tenants as the scan
meets them. -/
def lookupDeliveryTenant (order : List Text) (deliveryID : Text) (p : Provider) : Except Err Text :=
  if deliveryID = [] then .error (.wrap .invalid (text "empty delivery id"))
  else match order.find? fun tenantID => (p.tenants tenantID).deliveries.contains deliveryID with
    | some tenantID => .ok tenantID
    | none => .error (.wrap .notFound (text "delivery " ++ deliveryID))

def overlaidSender (v shadow : Sender) : Sender :=
  { v with
    health := shadow.health
    healthReason := shadow.healthReason
    healthCheckedAt := shadow.healthCheckedAt
    version := shadow.version
    updatedAt := shadow.updatedAt }

def statelessSender (tenantID : Text) (v : Sender) : Sender :=
  { v with tenantID, health := .unknown, healthReason := [], healthCheckedAt := 0, version := 0 }

/-- What a tenant may see of a virtual sender: its state is the system tenant's
alone. -/
def senderView (tenantID : Text) (p : Provider) (v : Sender) : Sender :=
  if tenantID ≠ systemTenantID then statelessSender tenantID v
  else match (p.tenants systemTenantID).senders[v.id]? with
    | none => v
    | some shadow => overlaidSender v shadow

def senderGet (tenantID id : Text) (p : Provider) : Except Err Sender :=
  if !isPlatformID id then (p.tenants tenantID).senderGet id
  else match p.platformSenders.find? fun v => v.id = id with
    | none => .error (.wrap .notFound (text "sender " ++ id))
    | some v => .ok (p.senderView tenantID v)

def overlaidTransport (v shadow : Transport) : Transport :=
  { v with
    status := shadow.status
    statusReason := shadow.statusReason
    statusChangedAt := shadow.statusChangedAt
    statusUntil := shadow.statusUntil
    version := shadow.version
    updatedAt := shadow.updatedAt }

def mergedTransport (p : Provider) (v : Transport) : Transport :=
  match (p.tenants systemTenantID).transports[v.id]? with
  | none => v
  | some shadow => overlaidTransport v shadow

/-- A shared transport is only visible to the system tenant. -/
def transportGet (tenantID id : Text) (p : Provider) : Except Err Transport :=
  if !isPlatformID id then find (p.tenants tenantID).transports id
  else if tenantID ≠ systemTenantID then .error (.wrap .notFound (text "transport " ++ id))
  else match p.platformTransports.find? fun v => v.id = id with
    | none => .error (.wrap .notFound (text "transport " ++ id))
    | some v => .ok (p.mergedTransport v)

def overlaidDomain (v shadow : SendingDomain) : SendingDomain :=
  { v with
    health := shadow.health
    healthReason := shadow.healthReason
    healthCheckedAt := shadow.healthCheckedAt
    version := shadow.version
    updatedAt := shadow.updatedAt }

def mergedDomain (p : Provider) (v : SendingDomain) : SendingDomain :=
  match (p.tenants systemTenantID).domains[v.id]? with
  | none => v
  | some shadow => overlaidDomain v shadow

def domainGet (tenantID id : Text) (p : Provider) : Except Err SendingDomain :=
  if !isPlatformID id then find (p.tenants tenantID).domains id
  else if tenantID ≠ systemTenantID then .error (.wrap .notFound (text "sending domain " ++ id))
  else match p.platformDomains.find? fun v => v.id = id with
    | none => .error (.wrap .notFound (text "sending domain " ++ id))
    | some v => .ok (p.mergedDomain v)

/-- A version the tenant does not have is taken from the system tenant. -/
def versionGet (tenantID id : Text) (p : Provider) : Except Err MessageVersion :=
  match find (p.tenants tenantID).versions id with
  | .ok v => .ok v
  | .error e =>
      if tenantID = systemTenantID then .error e else find (p.tenants systemTenantID).versions id

def transportMeta : Meta Transport where
  id := ⟨Transport.id, fun t id => { t with id }⟩
  tenant := ⟨Transport.tenantID, fun t tenantID => { t with tenantID }⟩
  version := some ⟨Transport.version, fun t version => { t with version }⟩
  created := ⟨Transport.createdAt, fun t createdAt => { t with createdAt }⟩
  updated := some ⟨Transport.updatedAt, fun t updatedAt => { t with updatedAt }⟩
  -- The end of a status is kept to the nanosecond.
  truncateRow t := { t with
    createdAt := truncateTime t.createdAt
    updatedAt := truncateTime t.updatedAt
    statusChangedAt := truncateTime t.statusChangedAt }

def sameTransportConfig (v t : Transport) : Bool :=
  v.name = t.name && v.host = t.host && v.port = t.port && v.tls = t.tls && v.username = t.username &&
    v.password = t.password && v.maxConns = t.maxConns && v.ratePerSecond = t.ratePerSecond &&
    v.domainRatePerSecond = t.domainRatePerSecond && t.shared

/-- The row that keeps the state of a shared transport and none of its
configuration. -/
def shadowTransport (t : Transport) : Transport where
  id := t.id
  shared := true
  status := t.status
  statusReason := t.statusReason
  statusChangedAt := t.statusChangedAt
  statusUntil := t.statusUntil
  version := t.version

def rowUpdate (tenantID : Text) (t : Transport) (p : Provider) : Except Err Transport × Provider :=
  let s := p.tenants tenantID
  let (reply, transports) := update transportMeta s.tenant s.now s.transports t
  (reply, p.put tenantID { s with transports })

def rowCreate (tenantID : Text) (t : Transport) (p : Provider) : Except Err Transport × Provider :=
  let s := p.tenants tenantID
  let (reply, transports) := create transportMeta s.tenant s.now t.id s.transports t
  (reply, p.put tenantID { s with transports })

/-- The state goes to a shadow row, which the first write creates. -/
def writeShadow (t : Transport) (p : Provider) : Except Err Transport × Provider :=
  match (p.tenants systemTenantID).transports[t.id]? with
  | none => rowCreate systemTenantID { shadowTransport t with version := 0 } p
  | some _ => rowUpdate systemTenantID (shadowTransport t) p

def readOnly (kind id : Text) : Err :=
  .wrap .readOnly (kind ++ text " " ++ id ++ text " is defined in the platform configuration")

def transportUpdate (tenantID : Text) (t : Transport) (p : Provider) : Except Err Transport × Provider :=
  if !isPlatformID t.id then p.rowUpdate tenantID t
  else match p.platformTransports.find? fun v => v.id = t.id with
    | none => (.error (readOnly (text "transport") t.id), p)
    | some v =>
        if tenantID ≠ systemTenantID ∨ !sameTransportConfig v t then
          (.error (readOnly (text "transport") t.id), p)
        else p.writeShadow t

theorem senderGet_error {tenantID id : Text} {p : Provider} (failed : p.senderGet tenantID id = .error e) :
    e.kind = .notFound := by
  rw [senderGet] at failed
  split at failed
  · rw [TenantStore.senderGet, find] at failed
    split at failed
    · cases failed
      rfl
    · cases failed
  · split at failed
    · cases failed
      rfl
    · cases failed

theorem senderGet_put {tenantID other id : Text} {p : Provider} (kept : s.senders = (p.tenants other).senders) :
    (p.put other s).senderGet tenantID id = p.senderGet tenantID id := by
  have senders (t : Text) : ((p.put other s).tenants t).senders = (p.tenants t).senders := by
    rw [put_get]
    split
    next same => rw [same, kept]
    · rfl
  have view (v : Sender) : (p.put other s).senderView tenantID v = p.senderView tenantID v := by
    simp [senderView, senders]
  simp only [senderGet, TenantStore.senderGet, senders, view]
  rfl

end Provider

end Sendplane.Memstore
