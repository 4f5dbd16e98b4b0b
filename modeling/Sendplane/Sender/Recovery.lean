import Sendplane.Sender.Suppression

namespace Sendplane.Memstore.Provider

open Data Store

structure Filed (p : Provider) : Prop where
  rows : ∀ (t id : Text) (row : Transport), (p.tenants t).transports[id]? = some row → row.id = id
  catalog : ∀ v ∈ p.platformTransports, v.shared = true

/-- A row with the status is stored, and the catalog is as before. -/
structure Wrote (p : Provider) (t id : Text) (status : TransportStatus)
    (ran : Except Err Transport × Provider) : Prop where
  replied : ran.1.isOk = true
  row : ∃ row, (ran.2.tenants t).transports[id]? = some row ∧ row.status = status
  catalog : ran.2.platformTransports = p.platformTransports

section

variable {p : Provider} {id : Text}

theorem wrote_put (kept : row.status = status) : Wrote p t id status
      (.ok reply, p.put t { p.tenants t with transports := (p.tenants t).transports.insert id row }) where
  replied := rfl
  row := ⟨row, by rw [put_same]; exact Table.get_insert_same (p.tenants t).transports id row, kept⟩
  catalog := rfl

theorem rowUpdate_wrote (stored : (p.tenants t).transports[v.id]? = some cur) (current : cur.version = v.version) :
    Wrote p t v.id v.status (p.rowUpdate t v) := by
  have updated : update transportMeta (p.tenants t).tenant (p.tenants t).now (p.tenants t).transports v =
      (.ok (updatedRow transportMeta (p.tenants t).tenant (p.tenants t).now cur v), (p.tenants t).transports.insert v.id
          (transportMeta.truncateRow (updatedRow transportMeta (p.tenants t).tenant (p.tenants t).now cur v))) := by
    have versions : versionOf transportMeta cur = versionOf transportMeta v := congrArg some current
    have found : (p.tenants t).transports[transportMeta.id.get v]? = some cur := stored
    simp only [update, found, versions, ne_eq, not_true_eq_false]
    rfl
  rw [rowUpdate, updated]
  exact wrote_put rfl

theorem rowCreate_wrote (named : v.id ≠ []) (absent : (p.tenants t).transports[v.id]? = none) :
    Wrote p t v.id v.status (p.rowCreate t v) := by
  have created : create transportMeta (p.tenants t).tenant (p.tenants t).now v.id (p.tenants t).transports v =
      (.ok (createdRow transportMeta (p.tenants t).tenant (p.tenants t).now v), (p.tenants t).transports.insert v.id
          (transportMeta.truncateRow (createdRow transportMeta (p.tenants t).tenant (p.tenants t).now v))) := by
    have id_eq : transportMeta.id.get v = v.id := rfl
    simp only [create, id_eq, if_neg named, absent]
    congr 2
    rw [createdRow]
    split <;> rfl
  rw [rowCreate, created]
  apply wrote_put
  rw [createdRow]
  split <;> rfl

theorem mergedTransport_config (p : Provider) :
    (p.mergedTransport v).id = v.id ∧ sameTransportConfig v (p.mergedTransport v) = v.shared := by
  rw [mergedTransport]
  split <;> simp [sameTransportConfig, overlaidTransport]

theorem writeShadow_wrote (named : v.id ≠ [])
    (current : ∀ shadow, (p.tenants systemTenantID).transports[v.id]? = some shadow → shadow.version = v.version) :
    Wrote p systemTenantID v.id v.status (p.writeShadow v) := by
  rw [writeShadow]
  split
  next absent => exact rowCreate_wrote (v := { shadowTransport v with version := 0 }) named absent
  next shadow stored => exact rowUpdate_wrote (v := shadowTransport v) stored (current shadow stored)

theorem transportGet_put (kept : s.transports = (p.tenants other).transports) :
    (p.put other s).transportGet t id = p.transportGet t id := by
  have transports (tenant : Text) : ((p.put other s).tenants tenant).transports = (p.tenants tenant).transports := by
    rw [put_get]
    split
    next same => rw [same, kept]
    · rfl
  have merged (v : Transport) : (p.put other s).mergedTransport v = p.mergedTransport v := by
    simp [mergedTransport, transports]
  simp only [transportGet, transports, merged]
  rfl

theorem transportUpdate_read (filed : p.Filed) (read : p.transportGet t id = .ok row)
    (status : TransportStatus) (reason : Text) (changedAt expiry : Time) :
    let ran := p.transportUpdate t
      { row with status, statusReason := reason, statusChangedAt := changedAt, statusUntil := expiry }
    ran.1.isOk = true ∧ ∃ seen, ran.2.transportGet t id = .ok seen ∧ seen.status = status := by
  generalize written :
    { row with status, statusReason := reason, statusChangedAt := changedAt, statusUntil := expiry } = w
  have same : w.id = row.id ∧ w.version = row.version ∧ w.status = status := by
    rw [← written]
    exact ⟨rfl, rfl, rfl⟩
  have config (v : Transport) : sameTransportConfig v w = sameTransportConfig v row := by
    rw [← written]
    rfl
  obtain ⟨idKept, versionKept, rfl⟩ := same
  rw [transportGet] at read
  by_cases own : (!isPlatformID id) = true
  · rw [if_pos own, find] at read
    split at read
    · cases read
    next cur stored =>
      cases read
      have placed := idKept.trans (filed.rows t id row stored)
      subst placed
      obtain ⟨replied, ⟨after, kept, seen⟩, -⟩ := rowUpdate_wrote stored versionKept.symm
      rw [transportUpdate, if_pos own]
      refine ⟨replied, after, ?_, seen⟩
      rw [transportGet, if_pos own, find, kept]
  · rw [if_neg own] at read
    by_cases system : t = systemTenantID
    · subst system
      rw [if_neg (by simp)] at read
      split at read
      · cases read
      next v listed =>
        cases read
        obtain ⟨merged, shares⟩ := mergedTransport_config p
        have placed : v.id = id := by simpa using List.find?_some listed
        have shared := filed.catalog v (List.mem_of_find?_eq_some listed)
        have named : w.id = id := (idKept.trans merged).trans placed
        subst named
        rw [transportUpdate, if_neg own]
        simp only [listed, config, shares, shared, ne_eq, not_true_eq_false, Bool.not_true, Bool.false_eq_true,
          or_self, ↓reduceIte]
        have present : w.id ≠ [] := by
          intro empty
          rw [empty] at own
          exact own rfl
        have current (shadow : Transport)
            (stored : (p.tenants systemTenantID).transports[w.id]? = some shadow) :
            shadow.version = w.version := by
          rw [versionKept, mergedTransport, placed, stored]
          rfl
        obtain ⟨replied, ⟨after, kept, seen⟩, catalog⟩ := writeShadow_wrote present current
        refine ⟨replied, (p.writeShadow w).2.mergedTransport v, ?_, ?_⟩
        · rw [transportGet, if_neg own, if_neg (by simp), catalog, listed]
        · rw [mergedTransport, placed, kept]
          exact seen
    · rw [if_pos system] at read
      cases read

end

end Sendplane.Memstore.Provider

namespace Sendplane.Sender

open Data Store Memstore

/-- A success closes the circuit. -/
def HealthTracker.Recovers (h : HealthTracker) (key : Text) (now : Time) : Prop :=
  (h.state key).status = .unhealthy ∨
    ((h.state key).status = .cooldown ∧ ∀ time ∈ (h.state key).rateLimits, time < now - h.rateLimitWindow)

variable {now : Time}

theorem pruneRateLimits_eq_nil :
    HealthTracker.pruneRateLimits times now window = [] ↔ ∀ time ∈ times, time < now - window := by
  simp only [HealthTracker.pruneRateLimits, List.filter_eq_nil_iff, decide_eq_true_eq, Int.not_le]

variable {h : HealthTracker}

theorem HealthTracker.success_recovers (recovers : h.Recovers key now) : (h.success key now).1 = some .healthy := by
  obtain unhealthy | ⟨cooldown, clear⟩ := recovers
  · simp [success, unhealthy]
  · simp [success, cooldown, pruneRateLimits_eq_nil.mpr clear]

theorem HealthTracker.success_silent (still : ¬h.Recovers key now) : (h.success key now).1 = none := by
  simp only [Recovers, not_or, not_and] at still
  cases status : (h.state key).status with
  | healthy => simp [success, status]
  | unhealthy => exact absurd status still.1
  | cooldown =>
      have limited := mt pruneRateLimits_eq_nil.mp (still.2 status)
      simp [success, status, limited]

namespace Process

/-- Circuits and rows, settings apart, are as before. -/
structure Unmoved (before after : World) : Prop where
  health : after.health = before.health
  view : after.view = before.view
  rows : RowsKept before.provider after.provider

theorem Unmoved.refl (w : World) : Unmoved w w :=
  ⟨rfl, rfl, .refl _⟩

theorem Unmoved.trans (first second third : World) (left : Unmoved first second)
    (right : Unmoved second third) : Unmoved first third := by
  obtain ⟨health, view, _, rows⟩ := left
  obtain ⟨healthLater, viewLater, settings, later⟩ := right
  refine ⟨healthLater.trans health, viewLater.trans view, settings, ?_⟩
  rw [later, rows]

variable {after : World}

theorem Unmoved.transportGet (unmoved : Unmoved before after) (t id : Text) :
    after.provider.transportGet t id = before.provider.transportGet t id := by
  obtain ⟨_, rows⟩ := unmoved.rows
  rw [rows]
  rfl

theorem Unmoved.filed (unmoved : Unmoved before after) (filed : before.provider.Filed) : after.provider.Filed := by
  obtain ⟨_, rows⟩ := unmoved.rows
  rw [rows]
  exact ⟨filed.rows, filed.catalog⟩

def Looks {α : Type} (program : Proc α) : Prop :=
  ∀ w, Unmoved w (program.exec w).2

variable {α β : Type}

theorem Looks.bind {program : Proc α} (looks : Looks program) (continues : ∀ reply, Looks (next reply)) :
    Looks (program >>= next) := by
  intro w
  rw [Prog.exec_bind]
  exact .trans _ _ _ (looks w) (continues _ _)

theorem looks_pure : Looks (pure value) :=
  .refl

theorem looks_query : Looks (Prog.query call look) :=
  .refl

section

variable (cfg : Config) (now : Time) (o : Outside) (tenantID : Text) (d : Delivery)

theorem unmoved_get (holder : Holder) (w : World) : Unmoved w (w.get cfg now holder kind key).2 := by
  have kept := load_kept cfg now holder.tenantID key w.provider kind
  rw [World.get]
  split
  · exact .refl w
  · split <;>
    next loaded =>
      rw [loaded] at kept
      exact ⟨rfl, rfl, kept⟩

theorem load_looks (holder : Holder) : Looks (load cfg now holder kind key) :=
  unmoved_get cfg now holder

theorem sysState_looks : Looks sysState := by
  rintro ⟨provider, caches, platform, health, handed⟩
  cases platform with
  | none => exact ⟨rfl, rfl, .refl _⟩
  | some known => exact .refl _

theorem configState_looks (id : Text) : Looks (configState tenantID id) := by
  rw [configState]
  split
  · exact looks_pure
  · refine sysState_looks.bind fun reply => ?_
    cases reply <;> exact looks_pure

theorem content_looks : Looks (content cfg now o tenantID d) := by
  refine (load_looks cfg now _).bind fun settings => ?_
  cases settings with
  | error e => exact looks_pure
  | ok settings =>
      have campaigns : Looks (campaignOf cfg now tenantID d) := by
        rw [campaignOf]
        split
        · exact looks_pure
        · refine (load_looks cfg now _).bind fun reply => ?_
          cases reply <;> exact looks_pure
      refine campaigns.bind fun campaign => ?_
      cases campaign with
      | error e => exact looks_pure
      | ok campaign =>
          refine (load_looks cfg now _).bind fun version => ?_
          cases version <;> exact looks_pure

theorem transportFor_looks (id : Text) : Looks (transportFor cfg now tenantID id) := by
  refine (configState_looks tenantID id).bind fun holder => ?_
  cases holder with
  | error e => exact looks_pure
  | ok holder => exact load_looks cfg now _

theorem domainFor_looks (id : Text) : Looks (domainFor cfg now tenantID id) := by
  refine (configState_looks tenantID id).bind fun holder => ?_
  cases holder with
  | error e => exact looks_pure
  | ok holder =>
      change Looks (domain cfg now holder id)
      rw [domain]
      split
      · exact looks_pure
      · refine (load_looks cfg now _).bind fun reply => ?_
        cases reply <;> exact looks_pure

theorem route_looks : Looks (route cfg now o tenantID d) := by
  refine (load_looks cfg now _).bind fun sender => ?_
  cases sender with
  | error e => exact looks_pure
  | ok sender =>
      refine (transportFor_looks cfg now tenantID _).bind fun transport => ?_
      cases transport with
      | error e => exact looks_pure
      | ok transport =>
          refine (domainFor_looks cfg now tenantID _).bind fun domain => ?_
          cases domain with
          | ok domain => exact looks_pure
          | error e =>
              dsimp only
              split <;> exact looks_pure

theorem suppression_looks : Looks (suppression cfg now o tenantID d settings tr) := by
  have platform : Looks (platformSuppressed now d tr) := by
    rw [platformSuppressed]
    split
    · exact looks_pure
    · refine sysState_looks.bind fun reply => ?_
      cases reply with
      | error e => exact looks_pure
      | ok _ => exact looks_query
  rw [suppression]
  split
  · refine looks_query.bind fun listed => ?_
    cases listed with
    | error e => exact looks_pure
    | ok listed =>
        cases listed with
        | true => exact looks_pure
        | false =>
            refine platform.bind fun reply => ?_
            cases reply <;> exact looks_pure
  · exact looks_pure

def keeper (id : Text) : Text :=
  if !isPlatformID id ∨ tenantID = systemTenantID then tenantID else systemTenantID

def World.storedStatus (w : World) (id : Text) : Option TransportStatus :=
  (w.provider.transportGet (keeper tenantID id) id).toOption.map Transport.status

def informed (w : World) : World :=
  ((content cfg now o tenantID d).exec w).2

def routed (w : World) : World :=
  ((route cfg now o tenantID d).exec (informed cfg now o tenantID d w)).2

def decided (c : Content) (r : Route) (w : World) : World :=
  ((suppression cfg now o tenantID d c.settings r.transport).exec (routed cfg now o tenantID d w)).2

/-- No lookup fails and nothing keeps the delivery from going out through the
route, where it succeeds. -/
structure Succeeds (c : Content) (r : Route) (w : World) : Prop where
  content : ((content cfg now o tenantID d).exec w).1 = .ok c
  route : ((route cfg now o tenantID d).exec (informed cfg now o tenantID d w)).1 = .ok r
  suppression : ((suppression cfg now o tenantID d c.settings r.transport).exec
    (routed cfg now o tenantID d w)).1 = .ok false
  usable : transportUsable w.health tenantID r.transport now = true
  view : isPlatformID r.transport.id = true → w.view = .ok ()
  waited : o.wait (limiterKeys cfg tenantID d r.transport) = none
  delivered : ∃ msg raw f, prepared cfg now o d c r = .ok (msg, raw) ∧
    ((transmit cfg o d r.transport ⟨r.transport.id, returnPath o d c r msg, d.email, raw⟩).exec
      (decided cfg now o tenantID d c r w)).1 = .ok f ∧ f.errorClass = .none

theorem decided_unmoved (c : Content) (r : Route) (w : World) : Unmoved w (decided cfg now o tenantID d c r w) := by
  have informed := content_looks cfg now o tenantID d w
  have routed := informed.trans _ _ _ (route_looks cfg now o tenantID d _)
  exact routed.trans _ _ _ (suppression_looks cfg now o tenantID d _)

variable {w : World}

theorem configState_exec {id : Text} (view : isPlatformID id = true → w.view = .ok ()) :
    ∃ holder, ((configState tenantID id).exec w).1 = .ok holder ∧ holder.tenantID = keeper tenantID id := by
  rw [configState, keeper]
  by_cases own : !isPlatformID id ∨ tenantID = systemTenantID
  · rw [if_pos own, if_pos own]
    exact ⟨.tenant tenantID, rfl, rfl⟩
  · have seen := view (by simpa using (not_or.mp own).1)
    rw [if_neg own, if_neg own]
    obtain ⟨provider, caches, platform, health, handed⟩ := w
    cases platform with
    | none => exact ⟨.platform, rfl, rfl⟩
    | some known =>
        have known : known = .ok () := seen
        subst known
        exact ⟨.platform, rfl, rfl⟩

variable {row : Transport} {status : TransportStatus}

theorem writeStatus_exec {holder : Holder} {id : Text} (filed : w.provider.Filed)
    (read : w.provider.transportGet holder.tenantID id = .ok row) (differs : row.status ≠ status) :
    ((writeStatus cfg o tenantID holder id status reason).exec w).1 = true ∧
      ∃ seen, ((writeStatus cfg o tenantID holder id status reason).exec w).2.provider.transportGet
        holder.tenantID id = .ok seen ∧ seen.status = status := by
  have wrote := Provider.transportUpdate_read filed read status reason o.clock
    (truncateTime (statusUntil cfg o status))
  rw [writeStatus, Prog.query_bind, Prog.exec_call]
  simp only [read, differs, false_and]
  exact wrote

theorem setTransportStatus_exec (filed : w.provider.Filed) (view : isPlatformID tr.id = true → w.view = .ok ())
    (read : w.provider.transportGet (keeper tenantID tr.id) tr.id = .ok row) (differs : row.status ≠ status) :
    ∃ seen, ((setTransportStatus cfg o tenantID tr status reason).exec w).2.provider.transportGet
      (keeper tenantID tr.id) tr.id = .ok seen ∧ seen.status = status := by
  obtain ⟨holder, configured, held⟩ := configState_exec tenantID view
  have looked := configState_looks tenantID tr.id w
  rw [← held] at read ⊢
  obtain ⟨ended, seen, wrote, changed⟩ := writeStatus_exec cfg o tenantID (looked.filed filed)
    ((looked.transportGet ..).trans read) differs
  refine ⟨seen, ?_, changed⟩
  rw [setTransportStatus, Prog.exec_bind, configured]
  rw [Prog.exec_bind, ended]
  exact wrote

theorem recordHealth_exec (filed : w.provider.Filed) (view : isPlatformID tr.id = true → w.view = .ok ())
    (read : w.provider.transportGet (keeper tenantID tr.id) tr.id = .ok row) (unhealthy : row.status = .unhealthy)
    (succeeded : f.errorClass = .none) : ∃ seen, ((recordHealth cfg o tenantID tr f).exec w).2.provider.transportGet
        (keeper tenantID tr.id) tr.id = .ok seen ∧
      (seen.status = .healthy ↔ w.health.Recovers (sharedTransportKey tenantID tr) o.finished) := by
  have records : (recordHealth cfg o tenantID tr f).exec w =
      Prog.exec (match (w.health.success (sharedTransportKey tenantID tr) o.finished).1 with
        | some status => setTransportStatus cfg o tenantID tr status (text "delivery succeeded")
        | none => pure ()) { w with health := (w.health.success (sharedTransportKey tenantID tr) o.finished).2 } := by
    simp only [recordHealth, succeeded, Prog.invoke_bind, Prog.exec_call]
    cases (w.health.success (sharedTransportKey tenantID tr) o.finished).1 <;> rfl
  rw [records]
  by_cases recovers : w.health.Recovers (sharedTransportKey tenantID tr) o.finished
  · have differs : row.status ≠ .healthy := by simp [unhealthy]
    rw [HealthTracker.success_recovers recovers]
    obtain ⟨seen, wrote, healthy⟩ := setTransportStatus_exec cfg o tenantID
      (w := { w with health := (w.health.success (sharedTransportKey tenantID tr) o.finished).2 })
      filed view read differs
    exact ⟨seen, wrote, iff_of_true healthy recovers⟩
  · rw [HealthTracker.success_silent recovers]
    exact ⟨row, read, iff_of_false (by simp [unhealthy]) recovers⟩

theorem markSent_transportGet (messageID : Text) (t id : Text) :
    ((markSent cfg o tenantID d messageID res).exec w).2.provider.transportGet t id = w.provider.transportGet t id := by
  have put : ((markSent cfg o tenantID d messageID res).exec w).2.provider = w.provider.put tenantID
      ((w.provider.tenants tenantID).deliveryMarkSent d.id cfg.workerID messageID o.finished).2 := by
    rw [markSent, Prog.invoke_bind, Prog.exec_call]
    split
    · rfl
    · split <;> rfl
  rw [put]
  exact Provider.transportGet_put rfl

theorem transmit_looks (tr : Transport) (e : Envelope) : Looks (transmit cfg o d tr e) := by
  intro w
  rw [transmit]
  split
  · exact .refl w
  · split
    · split <;> exact .refl w
    · exact ⟨rfl, rfl, .refl _⟩

variable {cfg now o tenantID d} {c : Content} {r : Route}

theorem Succeeds.process_exec (succeeds : Succeeds cfg now o tenantID d c r w) :
    (process cfg now o tenantID d).exec w =
      (attempt cfg now o tenantID d c r).exec (decided cfg now o tenantID d c r w) := by
  have content := succeeds.content
  have route := succeeds.route
  have suppression := succeeds.suppression
  rw [process, Prog.exec_bind, content]
  change Prog.exec (Process.route .. >>= _) (informed ..) = _
  rw [Prog.exec_bind, route]
  change Prog.exec (Process.suppression .. >>= _) (routed ..) = _
  rw [Prog.exec_bind, suppression]
  rfl

theorem Succeeds.attempt_exec (succeeds : Succeeds cfg now o tenantID d c r w) :
    ∃ f sent messageID res, f.errorClass = .none ∧ Unmoved w sent ∧ (process cfg now o tenantID d).exec w =
        (markSent cfg o tenantID d messageID res).exec ((recordHealth cfg o tenantID r.transport f).exec sent).2 := by
  obtain ⟨msg, raw, f, ready, sent, clean⟩ := succeeds.delivered
  have start := decided_unmoved cfg now o tenantID d c r w
  have usable : transportUsable (decided cfg now o tenantID d c r w).health tenantID r.transport now = true := by
    rw [start.health]
    exact succeeds.usable
  refine ⟨f, _, messageID cfg d msg, attemptResult cfg o d c r.transport (messageID cfg d msg) f, clean,
    start.trans _ _ _ (transmit_looks cfg o d r.transport ⟨r.transport.id, returnPath o d c r msg, d.email, raw⟩ _), ?_⟩
  rw [succeeds.process_exec, attempt, Prog.query_bind, Prog.exec_call, usable]
  simp only [ready, deliver, succeeds.waited]
  rw [Prog.exec_bind, sent]
  simp only [clean, ↓reduceIte]
  rw [Prog.exec_bind]

/-- A delivery that gets through a transport which is stored unhealthy takes it
back into use exactly if it closes the circuit of the replica that sent it. -/
theorem healed_iff_recovers {c : Content} {r : Route} {w : World} (filed : w.provider.Filed)
    (succeeds : Succeeds cfg now o tenantID d c r w)
    (unhealthy : w.storedStatus tenantID r.transport.id = some .unhealthy) :
    ((process cfg now o tenantID d).exec w).2.storedStatus tenantID r.transport.id = some .healthy ↔
      w.health.Recovers (sharedTransportKey tenantID r.transport) o.finished := by
  obtain ⟨f, sent, messageID, res, clean, unmoved, ran⟩ := succeeds.attempt_exec
  rw [World.storedStatus] at unhealthy
  obtain ⟨row, read, status⟩ : ∃ row, w.provider.transportGet (keeper tenantID r.transport.id) r.transport.id =
      .ok row ∧ row.status = .unhealthy := by
    cases read : w.provider.transportGet (keeper tenantID r.transport.id) r.transport.id with
    | error e => simp [read, Except.toOption] at unhealthy
    | ok row => exact ⟨row, rfl, by simpa [read, Except.toOption] using unhealthy⟩
  obtain ⟨seen, after, healed⟩ := recordHealth_exec cfg o tenantID (unmoved.filed filed)
    (fun platform => unmoved.view.trans (succeeds.view platform)) ((unmoved.transportGet ..).trans read) status clean
  rw [unmoved.health] at healed
  rw [ran, World.storedStatus, markSent_transportGet, after, ← healed]
  simp [Except.toOption]

end

def expiredRelay : Transport where
  id := text "t1"
  status := .unhealthy
  statusUntil := 3

def probe : Delivery :=
  { claimedDelivery with senderID := text "s1" }

def probeContent : Content where
  settings := { tenantID := text "acme" }
  campaign := none
  version := { id := text "v1", htmlTpl := text "hello" }

def probeRoute : Route where
  sender := { id := text "s1", fromEmail := text "news@acme.example", transportID := text "t1" }
  transport := expiredRelay
  domain := none

/-- The time of the stored status is over; what this replica knows of the
transport is given. -/
def expiredWorld (health : HealthTracker) : World where
  provider := {
    tenants := fun t =>
      { tenant := t
        transports := (∅ : Table Text Transport).insert (text "t1") expiredRelay
        senders := (∅ : Table Text Sender).insert (text "s1") probeRoute.sender
        deliveries := (∅ : Table Text Delivery).insert (text "d1") probe
        versions := (∅ : Table Text MessageVersion).insert (text "v1") probeContent.version
        settings := some probeContent.settings } }
  health := health

theorem expiredWorld_filed : (expiredWorld health).provider.Filed where
  rows t id row stored := by
    obtain ⟨same, rfl⟩ := Table.eq_of_get_single stored
    exact same
  catalog _ listed := by cases listed

theorem expiredWorld_succeeds :
    Succeeds replica 5 accepting (text "acme") probe probeContent probeRoute (expiredWorld health) where
  content := rfl
  route := rfl
  suppression := rfl
  usable := rfl
  view platform := by cases platform
  waited := rfl
  delivered := ⟨_, _, _, rfl, rfl, rfl⟩

theorem expiredWorld_unhealthy :
    (expiredWorld health).storedStatus (text "acme") probeRoute.transport.id = some .unhealthy := by
  rfl

def failedHere : HealthTracker where
  transports := (∅ : Table Text TransportHealth).insert (text "acme/t1") { failures := 3, status := .unhealthy }

theorem healed_by_its_own_replica :
    failedHere.Recovers (sharedTransportKey (text "acme") probeRoute.transport) accepting.finished ∧
      ((process replica 5 accepting (text "acme") probe).exec (expiredWorld failedHere)).2.storedStatus
        (text "acme") probeRoute.transport.id = some .healthy := by
  have recovers : failedHere.Recovers (sharedTransportKey (text "acme") probeRoute.transport) accepting.finished :=
    .inl (by decide +kernel)
  exact ⟨recovers, (healed_iff_recovers expiredWorld_filed expiredWorld_succeeds
    expiredWorld_unhealthy).mpr recovers⟩

/-- A replica that never saw the transport fail gets the probe through, and the
transport stays unhealthy. -/
theorem probe_leaves_unhealthy :
    (expiredWorld {}).provider.Filed ∧
      Succeeds replica 5 accepting (text "acme") probe probeContent probeRoute (expiredWorld {}) ∧
      (expiredWorld {}).storedStatus (text "acme") probeRoute.transport.id = some .unhealthy ∧
      ((process replica 5 accepting (text "acme") probe).exec (expiredWorld {})).1.newStatus = .sent ∧
      ((process replica 5 accepting (text "acme") probe).exec (expiredWorld {})).2.storedStatus
        (text "acme") probeRoute.transport.id = some .unhealthy :=
  ⟨expiredWorld_filed, expiredWorld_succeeds, expiredWorld_unhealthy, by decide +kernel, by decide +kernel⟩

end Process

end Sendplane.Sender
