import Sendplane.Data.Decoding
import Sendplane.Data.Effects
import Sendplane.Memstore.Calls

namespace Sendplane.Overlay

open Data Store Memstore

/-! # Platform resources over a backing store

The operator's shared resources are served as virtual rows; only their state is
stored, in shadow rows of the system tenant.  Every call of the backing store is
atomic; what the overlay does between two calls is not.
-/

/-- The virtual rows, built once from the configuration. -/
structure Catalog where
  transports : List Transport := []
  senders : List Sender := []
  domains : List SendingDomain := []
  probeMailboxes : List ProbeMailbox := []
  bounceMailboxes : List BounceMailbox := []
  trackingDomain : Text := []
  unsubscribeURLTemplate : Text := []
  /-- A virtual row is never written to. -/
  unversioned : (∀ v ∈ transports, v.version = 0) ∧ (∀ v ∈ senders, v.version = 0) ∧
    ∀ v ∈ domains, v.version = 0 := by simp

abbrev Op := Prog Unit Provider Err

section

variable {β : Type}

def onTenant (tenantID : Text) (op : TenantStore → Except Err β × TenantStore) : Op (Except Err β) :=
  Prog.invoke () ((Provider.forTenant tenantID).act op)

def lookAt (tenantID : Text) (look : TenantStore → Except Err β) : Op (Except Err β) :=
  Prog.query () fun p => look (p.tenants tenantID)

end

def notFound (kind id : Text) : Err :=
  .wrap .notFound (kind ++ text " " ++ id)

def platformCursorPrefix : Text := text "sys#"

def platformCursorDone : Text := platformCursorPrefix ++ text "$"

section

variable {α : Type} (virt : List α) (page : Page) (id : α → Text) (list : Page → Op (Except Err (Result α)))

def backing : Op (Except Err (Result α)) := do
  match ← list page with
  | .error e => return .error e
  | .ok res => return .ok { res with items := res.items.filter fun row => !isPlatformID (id row) }

def overlayFrom (start : Nat) : Op (Except Err (Result α)) := do
  let out := (virt.drop start).take page.limit.toNat
  if out.length = page.limit.toNat then
    let next := if start + out.length < virt.length then platformCursorPrefix ++ itoa (start + out.length)
      else platformCursorDone
    return .ok { items := out, nextCursor := next }
  else
    match ← backing { limit := page.limit - out.length } id list with
    | .error e => return .error e
    | .ok res => return .ok { res with items := out ++ res.items }

def overlayList : Op (Except Err (Result α)) :=
  let page := page.normalize
  if page.cursor = [] then overlayFrom virt page id list 0
  else if page.cursor = platformCursorDone then backing { limit := page.limit } id list
  else if platformCursorPrefix.isPrefixOf page.cursor then
    match parseInt (page.cursor.drop platformCursorPrefix.length) with
    | some n =>
        if n < 0 then return .error (.wrap .invalid (text "cursor " ++ Strings.quote page.cursor))
        else overlayFrom virt page id list n.toNat
    | none => return .error (.wrap .invalid (text "cursor " ++ Strings.quote page.cursor))
  else backing page id list

def collect : List (Op (Except Err α)) → Op (Except Err (List α))
  | [] => return .ok []
  | program :: rest => do
      match ← program with
      | .error e => return .error e
      | .ok v =>
          match ← collect rest with
          | .error e => return .error e
          | .ok vs => return .ok (v :: vs)

end

/-- What the overlay is told about an aggregate. -/
structure PlatformRepo (α : Type) where
  kind : Text
  table : TableRepo α
  virtuals : Catalog → List α
  overlaid : α → α → α
  /-- What a tenant other than the system tenant sees of a virtual row.  Only
  senders are shown to them. -/
  view : Option (Text → α → α) := none

namespace PlatformRepo

variable {α : Type} (repo : PlatformRepo α)

def idOf (v : α) : Text :=
  repo.table.info.id.get v

def readOnly (id : Text) : Err :=
  Provider.readOnly repo.kind id

def virtual (cat : Catalog) (id : Text) : Option α :=
  (repo.virtuals cat).find? fun v => repo.idOf v = id

def merged (v : α) : Op (Except Err α) := do
  match ← lookAt systemTenantID (repo.table.get (repo.idOf v)) with
  | .ok shadow => return .ok (repo.overlaid v shadow)
  | .error e => if e.kind = .notFound then return .ok v else return .error e

/-- How a virtual row is read for the tenant; `none` if it is hidden. -/
def shown (tenantID : Text) (v : α) : Option (Op (Except Err α)) :=
  if tenantID = systemTenantID then some (repo.merged v)
  else repo.view.map fun view => return .ok (view tenantID v)

def create (tenantID newID : Text) (v : α) : Op (Except Err α) :=
  if isPlatformID (repo.idOf v) then return .error (repo.readOnly (repo.idOf v))
  else onTenant tenantID (repo.table.create newID v)

def get (cat : Catalog) (tenantID id : Text) : Op (Except Err α) :=
  if !isPlatformID id then lookAt tenantID (repo.table.get id)
  else ((repo.virtual cat id).bind (repo.shown tenantID)).getD (return .error (notFound repo.kind id))

def delete (tenantID id : Text) : Op (Except Err Unit) :=
  if isPlatformID id then return .error (repo.readOnly id)
  else onTenant tenantID (repo.table.delete id)

def list (cat : Catalog) (tenantID : Text) (page : Page) : Op (Except Err (Result α)) := do
  match ← collect ((repo.virtuals cat).filterMap (repo.shown tenantID)) with
  | .error e => return .error e
  | .ok virt => overlayList virt page repo.idOf fun page => lookAt tenantID (repo.table.list page)

end PlatformRepo

structure StateRepo (α : Type) extends PlatformRepo α where
  sameConfig : α → α → Bool
  shadow : Int → α → α
  version : α → Int

namespace StateRepo

variable {α : Type} (repo : StateRepo α)

/-- Writes the state if the shadow row has the version of the value.  The value
itself is not written to. -/
def updateShadow (t : α) : Op (Except Err α) := do
  match ← onTenant systemTenantID (repo.table.update (repo.shadow (repo.version t) t)) with
  | .ok _ => return .ok t
  | .error e => return .error e

/-- The shadow row is created if there is none, unless another writer does so
first. -/
def writeShadow (t : α) : Op (Except Err α) := do
  match ← lookAt systemTenantID (repo.table.get (repo.idOf t)) with
  | .ok _ => repo.updateShadow t
  | .error e =>
      if e.kind ≠ .notFound then return .error e
      else
        match ← onTenant systemTenantID (repo.table.create [] (repo.shadow 0 t)) with
        | .ok _ => return .ok t
        | .error e =>
            if e.kind ≠ .conflict then return .error e
            else
              match ← lookAt systemTenantID (repo.table.get (repo.idOf t)) with
              | .ok _ => repo.updateShadow t
              | .error e => return .error e

/-- Answers the value as the caller is left with it. -/
def update (cat : Catalog) (tenantID : Text) (t : α) : Op (Except Err α) :=
  if !isPlatformID (repo.idOf t) then onTenant tenantID (repo.table.update t)
  else match repo.virtual cat (repo.idOf t) with
    | none => return .error (repo.readOnly (repo.idOf t))
    | some v =>
        if tenantID ≠ systemTenantID ∨ !repo.sameConfig v t then return .error (repo.readOnly (repo.idOf t))
        else repo.writeShadow t

end StateRepo

/-- An aggregate whose state is a health column with a method of its own. -/
structure HealthRepo (α : Type) extends PlatformRepo α where
  writeHealth : Text → MailboxHealth → TenantStore → Except Err Unit × TenantStore
  shadow : Text → MailboxHealth → α

namespace HealthRepo

variable {α : Type} (repo : HealthRepo α)

/-- Every field that Update could write is configuration. -/
def update (tenantID : Text) (m : α) : Op (Except Err α) :=
  if isPlatformID (repo.idOf m) then return .error (repo.readOnly (repo.idOf m))
  else onTenant tenantID (repo.table.update m)

def updateHealth (cat : Catalog) (tenantID id : Text) (h : MailboxHealth) : Op (Except Err Unit) := do
  if !isPlatformID id then onTenant tenantID (repo.writeHealth id h)
  else if (repo.virtual cat id).isNone ∨ tenantID ≠ systemTenantID then return .error (repo.readOnly id)
  else
    match ← onTenant systemTenantID (repo.writeHealth id h) with
    | .ok () => return .ok ()
    | .error e =>
        if e.kind ≠ .notFound then return .error e
        else
          match ← onTenant systemTenantID (repo.table.create [] (repo.shadow id h)) with
          | .ok _ => return .ok ()
          | .error e =>
              if e.kind = .conflict then onTenant systemTenantID (repo.writeHealth id h)
              else return .error e

end HealthRepo

def transports : StateRepo Transport where
  kind := text "transport"
  table := TenantStore.transportRepo
  virtuals := Catalog.transports
  overlaid := Provider.overlaidTransport
  sameConfig := Provider.sameTransportConfig
  shadow version t := { Provider.shadowTransport t with version }
  version := Transport.version

def sameSenderConfig (v s : Sender) : Bool :=
  v.name = s.name && v.fromName = s.fromName && v.fromEmail = s.fromEmail && v.replyTo = s.replyTo &&
    v.transportID = s.transportID && v.domainID = s.domainID && s.shared

def senders : StateRepo Sender where
  kind := text "sender"
  table := TenantStore.senderRepo
  virtuals := Catalog.senders
  overlaid := Provider.overlaidSender
  view := some Provider.statelessSender
  sameConfig := sameSenderConfig
  shadow version s :=
    { id := s.id, shared := true, version, health := s.health, healthReason := s.healthReason,
      healthCheckedAt := s.healthCheckedAt }
  version := Sender.version

def sameDomainConfig (v d : SendingDomain) : Bool :=
  v.domain = d.domain && v.dkimSelector = d.dkimSelector && v.dkimPrivateKey = d.dkimPrivateKey &&
    v.returnPathDomain = d.returnPathDomain && v.expectedSPF = d.expectedSPF && v.outboundIPs = d.outboundIPs &&
    d.shared

def domains : StateRepo SendingDomain where
  kind := text "sending domain"
  table := TenantStore.domainRepo
  virtuals := Catalog.domains
  overlaid := Provider.overlaidDomain
  sameConfig := sameDomainConfig
  shadow version d :=
    { id := d.id, shared := true, version, health := d.health, healthReason := d.healthReason,
      healthCheckedAt := d.healthCheckedAt }
  version := SendingDomain.version

def probeMailboxes : HealthRepo ProbeMailbox where
  kind := text "probe mailbox"
  table := TenantStore.probeMailboxRepo
  virtuals := Catalog.probeMailboxes
  overlaid v shadow := { v with health := shadow.health, version := shadow.version, updatedAt := shadow.updatedAt }
  writeHealth id h s := s.probeMailboxUpdateHealth id h
  shadow id health := { id, shared := true, health }

def bounceMailboxes : HealthRepo BounceMailbox where
  kind := text "bounce mailbox"
  table := TenantStore.bounceMailboxRepo
  virtuals := Catalog.bounceMailboxes
  overlaid v shadow := { v with health := shadow.health, version := shadow.version, updatedAt := shadow.updatedAt }
  writeHealth id h s := s.bounceMailboxUpdateHealth id h
  shadow id health := { id, shared := true, health }

def storedEnabled (s : TenantStore) : List BounceMailbox :=
  (s.bounceMailboxes.toList.map Prod.snd).filter BounceMailbox.enabled

def listEnabled (cat : Catalog) (tenantID : Text) : Op (Except Err (List BounceMailbox)) := do
  match ← lookAt tenantID fun s => .ok (storedEnabled s) with
  | .error e => return .error e
  | .ok rows =>
      let enabled := cat.bounceMailboxes.filter BounceMailbox.enabled
      match ← collect (enabled.filterMap (bounceMailboxes.shown tenantID)) with
      | .error e => return .error e
      | .ok out => return .ok (out ++ rows.filter fun row => !isPlatformID row.id)

inductive Resource where
  | transport | sender | domain | probeMailbox | bounceMailbox
deriving DecidableEq

namespace Resource

abbrev Row : Resource → Type
  | transport => Transport
  | sender => Sender
  | domain => SendingDomain
  | probeMailbox => ProbeMailbox
  | bounceMailbox => BounceMailbox

def repo : (resource : Resource) → PlatformRepo resource.Row
  | transport => transports.toPlatformRepo
  | sender => senders.toPlatformRepo
  | domain => domains.toPlatformRepo
  | probeMailbox => probeMailboxes.toPlatformRepo
  | bounceMailbox => bounceMailboxes.toPlatformRepo

def update (cat : Catalog) (tenantID : Text) : (resource : Resource) → resource.Row → Op (Except Err resource.Row)
  | transport => transports.update cat tenantID
  | sender => senders.update cat tenantID
  | domain => domains.update cat tenantID
  | probeMailbox => probeMailboxes.update tenantID
  | bounceMailbox => bounceMailboxes.update tenantID

def rows (resource : Resource) (s : TenantStore) : Table Text resource.Row :=
  resource.repo.table.rows.get s

end Resource

section

variable {fine : {α : Type} → Op α → Prop} (composes : Prog.Composes fine)
include composes

theorem collect_fine {α : Type} {programs : List (Op (Except Err α))} (each : ∀ program ∈ programs, fine program) :
    fine (collect programs) := by
  induction programs with
  | nil => exact composes.done _
  | cons program rest ih =>
      refine composes.bind (each program List.mem_cons_self) fun reply => ?_
      cases reply with
      | error e => exact composes.done _
      | ok v =>
          refine composes.bind (ih fun other member => each other (List.mem_cons_of_mem _ member)) fun reply => ?_
          cases reply <;> exact composes.done _

section

variable {α : Type} {id : α → Text} {list : Page → Op (Except Err (Result α))}
  (listed : ∀ page, fine (list page))
include listed

theorem backing_fine : fine (backing page id list) := by
  refine composes.bind (listed page) fun reply => ?_
  cases reply <;> exact composes.done _

theorem overlayFrom_fine : fine (overlayFrom virt page id list start) := by
  rw [overlayFrom]
  split
  · exact composes.done _
  · refine composes.bind (backing_fine composes listed) fun reply => ?_
    cases reply <;> exact composes.done _

theorem overlayList_fine : fine (overlayList virt page id list) := by
  rw [overlayList]
  split
  · exact overlayFrom_fine composes listed
  split
  · exact backing_fine composes listed
  split
  · split
    · split
      · exact composes.done _
      · exact overlayFrom_fine composes listed
    · exact composes.done _
  · exact backing_fine composes listed

end

variable {tenantID : Text} (looks : ∀ {β : Type} (look : TenantStore → Except Err β), fine (lookAt tenantID look))
include looks

section

variable {α : Type} {repo : PlatformRepo α}
  (visible : ∀ v program, repo.shown tenantID v = some program → fine program)
include visible

theorem PlatformRepo.get_fine (id : Text) : fine (repo.get cat tenantID id) := by
  rw [PlatformRepo.get]
  split
  · exact looks _
  · cases seen : (repo.virtual cat id).bind (repo.shown tenantID) with
    | none => exact composes.done _
    | some program =>
        obtain ⟨v, _, shown⟩ := Option.bind_eq_some_iff.mp seen
        exact visible v program shown

omit looks in
theorem PlatformRepo.collect_shown_fine (virtuals : List α) :
    fine (collect (virtuals.filterMap (repo.shown tenantID))) := by
  refine collect_fine composes fun program member => ?_
  obtain ⟨v, _, shown⟩ := List.mem_filterMap.mp member
  exact visible v program shown

theorem PlatformRepo.list_fine : fine (repo.list cat tenantID page) := by
  refine composes.bind (PlatformRepo.collect_shown_fine composes visible (repo.virtuals cat)) fun reply => ?_
  cases reply with
  | error e => exact composes.done _
  | ok virt => exact overlayList_fine composes (fun _ => looks _)

end

theorem listEnabled_fine (visible : ∀ v program, bounceMailboxes.shown tenantID v = some program → fine program) :
    fine (listEnabled cat tenantID) := by
  refine composes.bind (looks _) fun reply => ?_
  cases reply with
  | error e => exact composes.done _
  | ok rows =>
      refine composes.bind (PlatformRepo.collect_shown_fine composes visible _) fun reply => ?_
      cases reply <;> exact composes.done _

end

end Sendplane.Overlay
