import Sendplane.Bounce.Effects
import Sendplane.Bounce.Parse

namespace Sendplane.Bounce

open Data Store Memstore Prog TenantStore Provider Processor

namespace Processor

variable (proc : Processor)

def resolveTenant (order : List Text) (msg : Message) : Proc (Except Err Text) := do
  match proc.parseWithKeys msg.raw [] with
  | .error _ => return .ok systemTenantID
  | .ok parsed =>
      let c := parsed.correlation
      if c.tenantID ≠ [] then return .ok c.tenantID
      else if c.deliveryID = [] then return .ok systemTenantID
      else match ← Prog.query .getDelivery (Provider.lookupDeliveryTenant order c.deliveryID) with
        | .ok tenantID => return .ok tenantID
        | .error e =>
            if e.kind = .notFound then return .ok systemTenantID
            else return .error (within (text "bounce: lookup delivery " ++ c.deliveryID) e)

/-- The store of the resolved tenant can be had for every tenant ID, known or
not, unless the provider fails. -/
def handlePlatform (order : List Text) (msg : Message) (a : Attempt) : Proc (Outcome × Option Err) := do
  match ← proc.resolveTenant order msg with
  | .error e => return ({}, some e)
  | .ok tenantID =>
      match ← Prog.query (ε := Err) (β := Unit) .platformView (fun _ => .ok ()) with
      | .error e => return ({}, some (within (text "bounce: store for tenant " ++ tenantID) e))
      | .ok _ => proc.handle tenantID msg a

end Processor

/-- The tenant that the lookup of the delivery ID returns. -/
def Owns (proc : Processor) (order : List Text) (msg : Message) (p : Provider) (tenantID : Text) : Prop :=
  ∃ parsed, proc.parseWithKeys msg.raw [] = .ok parsed ∧
    p.lookupDeliveryTenant order parsed.correlation.deliveryID = .ok tenantID

/-- Whatever happens to the calls, only the system tenant and the owner of the
delivery can change. -/
def Isolated (proc : Processor) (order : List Text) (msg : Message) (p : Provider) : Prop :=
  ∀ (a : Attempt) (plan : Nat → Option Err), (∀ n, ∀ e ∈ plan n, Outage e) →
    ∀ t, t ≠ systemTenantID → ¬Owns proc order msg p t → Untouched t p ((proc.handlePlatform order msg a).run plan p).2

/-- Handling the message for the tenant that it names writes nothing: the
settings are there, and it is no bounce or one of a delivery that is settled. -/
def Idle (s : TenantStore) (parsed : Parsed) : Prop :=
  s.settings ≠ none ∧ (parsed.isBounce = true →
    ∃ d, s.deliveryGet parsed.correlation.deliveryID = .ok d ∧ d.status ≠ .sent ∧
      (d.status = .bounced ∨ d.status = .complained → parsed.type ≠ .soft))

/-- If the message names a tenant, then the system tenant, the owner of the
delivery or one that has nothing to write. -/
def Attributed (proc : Processor) (order : List Text) (msg : Message) (p : Provider) : Prop :=
  ∀ parsed, proc.parseWithKeys msg.raw [] = .ok parsed →
    parsed.correlation.tenantID = [] ∨ parsed.correlation.tenantID = systemTenantID ∨
      p.lookupDeliveryTenant order parsed.correlation.deliveryID = .ok parsed.correlation.tenantID ∨
      Idle (p.tenants parsed.correlation.tenantID) parsed

section

variable {trace : Prog.Trace Call}

theorem resolveTenant_ends (ends : (proc.resolveTenant order msg).Ends (fun _ => Outage) p trace reply after) :
    after = p ∧ ∀ t, reply = .ok t → t = systemTenantID ∨ Owns proc order msg p t ∨
      ∃ parsed, proc.parseWithKeys msg.raw [] = .ok parsed ∧ parsed.correlation.tenantID = t ∧ t ≠ [] := by
  unfold resolveTenant at ends
  split at ends
  · obtain ⟨rfl, rfl, rfl⟩ := ends
    exact ⟨rfl, fun t same => .inl (Except.ok.inj same).symm⟩
  next parsed read =>
    dsimp only at ends
    split at ends
    next named =>
      obtain ⟨rfl, rfl, rfl⟩ := ends
      refine ⟨rfl, fun t same => .inr (.inr ⟨parsed, read, Except.ok.inj same, ?_⟩)⟩
      rw [← Except.ok.inj same]
      exact named
    split at ends
    · obtain ⟨rfl, rfl, rfl⟩ := ends
      exact ⟨rfl, fun t same => .inl (Except.ok.inj same).symm⟩
    obtain ⟨later, ⟨rfl, looked⟩ | ⟨rfl, failure, outage, failed⟩⟩ := ends_query ends
    · cases found : p.lookupDeliveryTenant order parsed.correlation.deliveryID with
      | ok owner =>
          simp only [found] at looked
          obtain ⟨rfl, rfl, rfl⟩ := looked
          refine ⟨rfl, fun t same => .inr (.inl ⟨parsed, read, ?_⟩)⟩
          rw [found, Except.ok.inj same]
      | error e =>
          simp only [found] at looked
          split at looked
          · obtain ⟨rfl, rfl, rfl⟩ := looked
            exact ⟨rfl, fun t same => .inl (Except.ok.inj same).symm⟩
          · obtain ⟨rfl, rfl, rfl⟩ := looked
            exact ⟨rfl, fun t same => by cases same⟩
    · simp only [outage.ne (show ErrKind.notFound ≠ .other by decide)] at failed
      obtain ⟨rfl, rfl, rfl⟩ := failed
      exact ⟨rfl, fun t same => by cases same⟩

end

section

variable {reader : Reader} {base : Processor} {order : List Text} {msg : Message} {p after : Provider}
  {a : Attempt} {parsed : Parsed} {tenantID : Text}

section

variable (read : reader.parseWithKeys msg.raw [] = .ok parsed)
include read

section

variable (named : parsed.correlation.tenantID ≠ [])
include named

theorem read_named (keys : List SigningKey) :
    reader.parseWithKeys msg.raw keys = .ok parsed ∧ parsed.correlation.deliveryID ≠ [] ∧
      parsed.correlation.verified = true := by
  obtain ⟨c, classified, _, rfl, keyed⟩ := Reader.parseWithKeys_keys read keys
  obtain ⟨identified, verified⟩ := correlate_tenant named
  refine ⟨?_, identified, verified⟩
  rw [keyed, correlate_named named]

theorem afterLoad_named (settings : TenantSettings) :
    afterLoad (reader.processor base) tenantID msg a (.ok settings) =
      if parsed.autoReply then return ({ parsed, skipped := some .autoReply }, none)
      else if !parsed.isBounce then return ({ parsed, skipped := some .notABounce }, none)
      else (reader.processor base).handleBounce tenantID settings { parsed } msg a := by
  have same : (reader.processor base).parseWithKeys msg.raw settings.tracking.signingKeys = .ok parsed :=
    (read_named read named _).1
  simp [afterLoad, same]

theorem handle_idle {trace : Trace Call} (idle : Idle (p.tenants parsed.correlation.tenantID) parsed)
    (ends : ((reader.processor base).handle parsed.correlation.tenantID msg a).Ends (fun _ => Outage) p trace reply after) :
    after = p := by
  obtain ⟨present, settled⟩ := idle
  rw [handle_eq] at ends
  obtain ⟨first, rest, loaded, store, rfl, loading, following⟩ := ends_bind ends
  obtain ⟨_, kept, _⟩ := loadSettings_writes loading
  obtain rfl := kept present
  cases loaded with
  | error e => exact following.2.2
  | ok settings =>
      obtain ⟨_, identified, verified⟩ := read_named read named []
      rw [afterLoad_named read named] at following
      cases bounce : parsed.isBounce with
      | false =>
          simp only [bounce, Bool.not_false] at following
          split at following <;> exact following.2.2
      | true =>
          obtain ⟨d, stored, unsent, final⟩ := settled bounce
          have genuine : parsed.autoReply = false := by
            simp only [Parsed.isBounce, Bool.and_eq_true, Bool.not_eq_eq_eq_not] at bounce
            exact bounce.1
          simp only [genuine, bounce, handleBounce, identified, ne_eq, not_true_eq_false, and_false] at following
          obtain ⟨later, ⟨rfl, looked⟩ | ⟨rfl, failure, outage, failed⟩⟩ := ends_query following
          · simp only [stored, verified, Bool.not_true, Bool.false_eq_true, ↓reduceIte, handleVerified,
              unsent, ne_eq, not_false_eq_true] at looked
            split at looked
            next terminal =>
              rw [if_neg (final terminal)] at looked
              exact looked.2.2
            · exact looked.2.2
          · simp only [outage.ne (show ErrKind.notFound ≠ .other by decide)] at failed
            exact failed.2.2

end

end

theorem loadSettings_exec : ∃ v settings, ((loadTenantSettings Call.loadSettings tenantID a.key a.now).zoom
      (forTenant tenantID)).exec p = (.ok v, p.put tenantID { p.tenants tenantID with settings := some settings }) := by
  have calm : ∀ n, ∀ e ∈ (fun _ => none : Nat → Option Err) n, Outage e := by simp
  cases stored : (p.tenants tenantID).settings with
  | some v =>
      have ran := loadTenantSettings_run_stored Call.loadSettings tenantID a.key a.now calm stored
      refine ⟨v, v, (run_zoom ran).trans ?_⟩
      rw [← stored]
      rfl
  | none =>
      rcases loadTenantSettings_run_absent Call.loadSettings tenantID a.key a.now calm stored with
        ⟨_, _, v, settings, ran⟩ | ⟨planned, _⟩
      · exact ⟨v, settings, run_zoom ran⟩
      · simp at planned

theorem handle_exec_settings (proc : Processor) (tenantID : Text) (msg : Message) (a : Attempt) (p : Provider) :
    HasSettings (((proc.handle tenantID msg a).exec p).2.tenants tenantID) := by
  obtain ⟨v, settings, loaded⟩ := loadSettings_exec
  rw [handle_eq, exec_bind, loaded]
  refine run_hasSettings afterLoad_makes ?_
  rw [HasSettings]
  simp

variable {proc : Processor} {settings : TenantSettings}

theorem record_exec {d : Option Delivery} (identified : a.bounceID ≠ []) :
    HasBounce a.bounceID (((proc.record tenantID settings out msg d a).exec p).2.tenants tenantID) := by
  have written : ((proc.record tenantID settings out msg d a).exec p).2 =
      ((forTenant tenantID).act (bounceCreate a.bounceID
        (proc.bounceEvent settings out.parsed msg d a)) p).2 := by
    rw [record, invoke_bind, exec_call]
    split <;> rfl
  rw [written, forTenant_act, if_pos rfl]
  cases stored : (p.tenants tenantID).bounces[a.bounceID]? with
  | some row =>
      apply hasBounce_create
      rw [HasBounce, stored]
      simp
  | none =>
      obtain ⟨row, created⟩ := bounceCreate_fresh a.bounceID
        (proc.bounceEvent settings out.parsed msg d a) identified stored
      rw [created, HasBounce]
      simp only [bounceEvent]
      simp

theorem handleVerified_exec {d : Delivery} (identified : a.bounceID ≠ [])
    (live : d.status ≠ .sent → (d.status = .bounced ∨ d.status = .complained) ∧ out.parsed.type = .soft) :
    HasBounce a.bounceID (((proc.handleVerified tenantID settings out msg d a).exec p).2.tenants tenantID) := by
  by_cases sent : d.status = .sent
  · rw [handleVerified_sent sent, exec_bind]
    exact run_hasBounce afterRecord_makes (record_exec identified)
  · rw [handleVerified, if_pos sent, if_pos (live sent).1, if_pos (live sent).2]
    exact record_exec identified

theorem deliveryGet_error {s : TenantStore} {id : Text} (missing : s.deliveryGet id = .error e) :
    e.kind = .notFound := by
  unfold deliveryGet DeliveryRepo.get at missing
  split at missing
  · cases missing
    rfl
  · cases missing

theorem handle_exec_bounce (base : Processor) (read : reader.parseWithKeys msg.raw [] = .ok parsed)
    (named : parsed.correlation.tenantID ≠ []) (bounce : parsed.isBounce = true)
    (live : ∀ d, (p.tenants parsed.correlation.tenantID).deliveryGet parsed.correlation.deliveryID = .ok d →
      d.status ≠ .sent → (d.status = .bounced ∨ d.status = .complained) ∧ parsed.type = .soft)
    (identified : a.bounceID ≠ []) :
    HasBounce a.bounceID ((((reader.processor base).handle parsed.correlation.tenantID msg a).exec p).2.tenants
      parsed.correlation.tenantID) := by
  obtain ⟨v, settings, loaded⟩ := loadSettings_exec
  obtain ⟨_, delivery, verified⟩ := read_named read named []
  have genuine : parsed.autoReply = false := by
    simp only [Parsed.isBounce, Bool.and_eq_true, Bool.not_eq_eq_eq_not] at bounce
    exact bounce.1
  rw [handle_eq, exec_bind, loaded, afterLoad_named read named]
  simp only [genuine, bounce, Bool.false_eq_true, Bool.not_true, ↓reduceIte, handleBounce,
    delivery, ne_eq, not_true_eq_false, and_false, getDelivery, query_bind, exec_call,
    put_same, verified]
  have same : deliveryGet parsed.correlation.deliveryID
      { p.tenants parsed.correlation.tenantID with settings := some settings } =
        (p.tenants parsed.correlation.tenantID).deliveryGet parsed.correlation.deliveryID := rfl
  cases found : (p.tenants parsed.correlation.tenantID).deliveryGet parsed.correlation.deliveryID with
  | error e =>
      simp only [same, found, deliveryGet_error found]
      exact record_exec identified
  | ok d =>
      simp only [same, found]
      exact handleVerified_exec identified (live d found)

theorem handlePlatform_named (read : reader.parseWithKeys msg.raw [] = .ok parsed)
    (named : parsed.correlation.tenantID ≠ []) :
    ((reader.processor base).handlePlatform order msg a).exec p =
      ((reader.processor base).handle parsed.correlation.tenantID msg a).exec p := by
  have same : (reader.processor base).parseWithKeys msg.raw [] = .ok parsed := read
  simp only [handlePlatform, resolveTenant, same, named, ne_eq, not_false_eq_true, ↓reduceIte,
    pure_eq, done_bind, query_bind, exec_call]

theorem handle_touches (read : reader.parseWithKeys msg.raw [] = .ok parsed)
    (named : parsed.correlation.tenantID ≠ []) (active : ¬Idle (p.tenants parsed.correlation.tenantID) parsed) :
    ∃ a, ¬Untouched parsed.correlation.tenantID p
      (((reader.processor base).handle parsed.correlation.tenantID msg a).exec p).2 := by
  by_cases absent : (p.tenants parsed.correlation.tenantID).settings = none
  · refine ⟨{ now := 0, bounceID := [], outboxID := [] }, fun untouched => ?_⟩
    have present := handle_exec_settings (reader.processor base) parsed.correlation.tenantID msg
      { now := 0, bounceID := [], outboxID := [] } p
    rw [untouched] at present
    exact present absent
  · have bounce : parsed.isBounce = true := by
      by_contra other
      exact active ⟨absent, fun is => absurd is other⟩
    have live : ∀ d, (p.tenants parsed.correlation.tenantID).deliveryGet parsed.correlation.deliveryID = .ok d →
        d.status ≠ .sent → (d.status = .bounced ∨ d.status = .complained) ∧ parsed.type = .soft := by
      intro d found unsent
      by_contra settled
      exact active ⟨absent, fun _ => ⟨d, found, unsent, fun terminal soft => settled ⟨terminal, soft⟩⟩⟩
    obtain ⟨bound, unused⟩ := Table.exists_bound List.length (p.tenants parsed.correlation.tenantID).bounces
    let a : Attempt := { now := 0, bounceID := List.replicate (bound + 1) 48, outboxID := [] }
    refine ⟨a, fun untouched => ?_⟩
    have present : HasBounce a.bounceID _ := handle_exec_bounce base read named bounce live (by simp [a])
    rw [untouched] at present
    exact present (unused a.bounceID (by simp [a]))

/-- Handling a message from a shared mailbox is confined to the system tenant
and the owner of the delivery exactly if the tenant that the message names, which
nothing vouches for, is one of them or has nothing to write. -/
theorem platform_isolated_iff (reader : Reader) (base : Processor) (order : List Text) (msg : Message) (p : Provider) :
    Isolated (reader.processor base) order msg p ↔ Attributed (reader.processor base) order msg p := by
  constructor
  · intro isolated parsed read
    by_contra unattributed
    push Not at unattributed
    obtain ⟨named, foreign, unowned, active⟩ := unattributed
    obtain ⟨a, touched⟩ := handle_touches read named active
    have untouched := isolated a (fun _ => none) (by simp) parsed.correlation.tenantID foreign ?_
    · rw [← exec, handlePlatform_named read named] at untouched
      exact touched untouched
    · rintro ⟨other, again, owner⟩
      rw [read] at again
      cases again
      exact unowned owner
  · intro attributed a plan outages t tenant unowned
    have ends : ((reader.processor base).handlePlatform order msg a).Ends (fun _ => Outage) p _ _ _ :=
      ends_run (fun n e planned _ => outages n e planned) _ p
    generalize (((reader.processor base).handlePlatform order msg a).run plan p).2 = after at ends ⊢
    obtain ⟨first, rest, resolved, store, _, resolving, following⟩ := ends_bind ends
    obtain ⟨rfl, resolves⟩ := resolveTenant_ends resolving
    cases resolved with
    | error e =>
        obtain ⟨_, _, rfl⟩ := following
        rfl
    | ok tenantID =>
        obtain ⟨later, ⟨_, handled⟩ | ⟨_, failure, _, failed⟩⟩ := ends_query following
        · by_cases same : t = tenantID
          · subst same
            rcases resolves t rfl with system | owner | ⟨parsed, read, rfl, named⟩
            · exact absurd system tenant
            · exact absurd owner unowned
            · rcases attributed parsed read with empty | system | owner | idle
              · exact absurd empty named
              · exact absurd system tenant
              · exact absurd ⟨parsed, read, owner⟩ unowned
              · rw [handle_idle read named idle handled]
                rfl
          · exact ends_elsewhere handle_makes same tenant handled
        · obtain ⟨_, _, rfl⟩ := failed
          rfl

end

def asciiMail : MailSyntax where
  lower := id
  lower_control _ _ _ member := member
  quote := id
  parseAddress := .ok
  toASCII := .ok

def forgedReport : Message where
  received := 1000000
  raw := text "X-Sendplane-ID: victim/unknown\r\nContent-Type: message/delivery-status\r\n\r\n" ++
    text "Reporting-MTA: dns; mx.example.org\r\n\r\n" ++
    text "Final-Recipient: rfc822; ann@example.org\r\nAction: failed\r\nStatus: 5.1.1\r\n\r\n"

def forgedReader : Reader where
  syn := asciiMail
  signer := ⟨fun secret body => secret ++ body⟩
  read _ := .ok ({
      top := [(text "X-Sendplane-Id", text "victim/unknown"), (text "Content-Type", text "message/delivery-status")]
      dsnPerMessage := some [(text "Reporting-Mta", text "dns; mx.example.org")]
      dsnRecipients := [[(text "Final-Recipient", text "rfc822; ann@example.org"), (text "Action", text "failed"),
        (text "Status", text "5.1.1")]] },
    { type := .hard, status := text "5.1.1", finalRecipient := text "ann@example.org", confidence := .high })

def plainProcessor : Processor where
  parseWithKeys _ _ := .ok {}
  normalizeEmail address := .ok address
  marshal raw := raw

def emptyProvider : Provider where
  tenants t := { tenant := t }

def forgedAttempt : Attempt where
  now := 1000000
  bounceID := text "b1"
  outboxID := text "e1"

/-- There is no delivery at all, and a tenant that does not exist either gets a
settings row and an event. -/
theorem forged_report_writes_to_victim :
    let proc := forgedReader.processor plainProcessor
    let after := ((proc.handlePlatform [] forgedReport forgedAttempt).exec emptyProvider).2
    (∀ t, ¬Owns proc [] forgedReport emptyProvider t) ∧ text "victim" ≠ systemTenantID ∧
      (emptyProvider.tenants (text "victim")).settings = none ∧
      (emptyProvider.tenants (text "victim")).bounces.size = 0 ∧
      (after.tenants (text "victim")).settings ≠ none ∧ (after.tenants (text "victim")).bounces.size = 1 ∧
      ¬Isolated proc [] forgedReport emptyProvider := by
  intro proc after
  have unowned : ∀ t, ¬Owns proc [] forgedReport emptyProvider t := by
    rintro t ⟨parsed, read, owner⟩
    unfold lookupDeliveryTenant at owner
    split at owner <;> cases owner
  have recorded : (after.tenants (text "victim")).bounces.size = 1 := by decide +kernel
  refine ⟨unowned, by decide, rfl, rfl, by decide +kernel, recorded, fun isolated => ?_⟩
  have untouched : after.tenants (text "victim") = emptyProvider.tenants (text "victim") :=
    isolated forgedAttempt (fun _ => none) (by simp) _ (by decide) (unowned _)
  rw [untouched] at recorded
  cases recorded

end Sendplane.Bounce
