import Sendplane.Sender.Lookup

namespace Sendplane.Sender.Process

open Data Store Memstore Prog Process.Call

section

variable (cfg : Config) (now : Time) (o : Outside) (tenantID : Text) (d : Delivery) (w : World)

/-- The delivery goes back to the queue for a reason that is not its own. -/
structure Deferred (reason : Prop) (res : DeliveryResult) (after : World) : Prop where
  reason : reason
  deferral : ∃ what message, res = deferral cfg o d what message
  handed : after.handed = w.handed

/-- A lookup got no answer: its call failed, or the view of the platform had
failed before. -/
def Unanswered (trace : Prog.Trace Call) : Prop :=
  Prog.Failed trace ∨ ∃ e, w.view = .error e

/-- Nothing is handed to the SMTP connection, and the delivery is suppressed or,
if a lookup got no answer, put back. -/
def Withheld (trace : Prog.Trace Call) (res : DeliveryResult) (after : World) : Prop :=
  (after.handed = w.handed ∧ res.newStatus = .suppressed) ∨ Deferred cfg o d w (Unanswered w trace) res after

/-- The delivery goes through a transport of the platform to an address that
the platform has listed. -/
structure Listed (snd : Sender) (tr : Transport) : Prop where
  lane : d.lane ≠ .probe
  sender : w.seen cfg now (.tenant tenantID) .sender d.senderID = .ok snd
  platform : isPlatformID snd.transportID = true
  transport : w.transportFor cfg now tenantID snd.transportID = .ok tr
  shared : tr.shared = true
  listed : (w.provider.tenants systemTenantID).isSuppressed d.emailNorm now = .ok true

/-- The message version of the delivery can be loaded. -/
def Versioned : Prop :=
  ∃ campaign version, w.campaignOf cfg now tenantID d = .ok campaign ∧
    w.seen cfg now (.tenant tenantID) .version (versionID d campaign) = .ok version

/-- The run gets as far as the lists, and the tenant wants them consulted. -/
def Consulted : Prop :=
  Versioned cfg now tenantID d w ∧ ∃ settings : TenantSettings,
    w.seen cfg now (.tenant tenantID) .settings [] = .ok settings ∧ settings.suppressionEnabled = true

variable {cfg now o tenantID d w}

theorem unusable_outage (outage : Outage e) : unusable cfg o d what e = deferral cfg o d what e.message := by
  have found : e.kind ≠ .notFound := outage.ne (by decide)
  rw [unusable, configResult, if_pos found, deferral]

theorem unusable_missing (missing : e.kind = .notFound) : (unusable cfg o d what e).newStatus = .failed := by
  simp [unusable, configResult, missing, failResult]

theorem campaignOf_error (failed : w.campaignOf cfg now tenantID d = .error e) : e.kind = .notFound := by
  rw [World.campaignOf] at failed
  split at failed
  · cases failed
  · cases seen : w.seen cfg now (.tenant tenantID) .campaign d.campaignID with
    | ok c => simp [seen, Except.bind] at failed
    | error e' =>
        simp only [seen, Except.bind, Except.error.injEq] at failed
        subst failed
        exact seen_error (by decide) seen

variable {reason : Prop} {trace : Prog.Trace Call}

theorem after_lookup {α β : Type} {program : Proc (Except Err α)} {answer : Except Err α}
    {next : Except Err α → Proc (Except DeliveryResult β)} {final : Except DeliveryResult β}
    (reached : Agrees cfg now w start) (part : Failed trace → reason)
    (looked : ∀ trace reply middle, program.Ends Fault start trace reply middle →
      Answers cfg now start trace reply middle answer)
    (hands : ∀ e, Outage e → ∃ what, next (.error e) = pure (.error (deferral cfg o d what e.message)))
    (ends : (program >>= next).Ends Fault start trace final after) :
    (∃ res, final = .error res ∧ Deferred cfg o d w reason res after) ∨
      ∃ middle rest, Agrees cfg now w middle ∧ (Failed rest → reason) ∧
        (next answer).Ends Fault middle rest final after := by
  obtain ⟨first, second, reply, middle, rfl, started, finished⟩ := ends_bind ends
  obtain ⟨failed, ⟨e, outage, rfl⟩, handed⟩ | ⟨rfl, agrees⟩ := looked _ _ _ started
  · obtain ⟨what, same⟩ := hands e outage
    rw [same] at finished
    obtain ⟨rfl, rfl, rfl⟩ := finished
    have broken : reason := part (failed_append.mpr (.inl failed))
    exact .inl ⟨_, rfl, broken, ⟨what, _, rfl⟩, handed.trans reached.handed⟩
  · exact .inr ⟨middle, second, reached.trans agrees, fun failed => part (failed_append.mpr (.inr failed)), finished⟩

theorem content_ends {reply : Except DeliveryResult Content} (part : Failed trace → reason)
    (ends : (content cfg now o tenantID d).Ends Fault w trace reply after) :
    (∃ res, reply = .error res ∧ Deferred cfg o d w reason res after) ∨
      (¬Versioned cfg now tenantID d w ∧ ∃ res, reply = .error res ∧ res.newStatus = .failed) ∨
      ∃ c, reply = .ok c ∧ w.seen cfg now (.tenant tenantID) .settings [] = .ok c.settings ∧
        Versioned cfg now tenantID d w ∧ Agrees cfg now w after := by
  obtain deferred | ⟨settled, rest, agrees, part, ends⟩ :=
    after_lookup (.refl w) part (fun _ _ _ => load_ends) (fun _ _ => ⟨_, rfl⟩) ends
  · exact .inl deferred
  obtain ⟨settings, set⟩ := seen_settings cfg now (.tenant tenantID) [] w
  rw [set] at ends
  have campaign : settled.campaignOf cfg now tenantID d = w.campaignOf cfg now tenantID d := by
    simp [World.campaignOf, agrees.seen _ .campaign _ (by decide)]
  obtain deferred | ⟨named, rest, before, part, ends⟩ := after_lookup agrees part (fun _ _ _ => campaignOf_ends)
      (fun _ outage => ⟨_, congrArg _ (congrArg _ (unusable_outage outage))⟩) ends
  · exact .inl deferred
  rw [campaign] at ends
  cases owned : w.campaignOf cfg now tenantID d with
  | error e =>
      rw [owned] at ends
      obtain ⟨rfl, rfl, rfl⟩ := ends
      refine .inr (.inl ⟨?_, _, rfl, unusable_missing (campaignOf_error owned)⟩)
      rintro ⟨campaign, version, found, -⟩
      rw [owned] at found
      cases found
  | ok campaign =>
      rw [owned] at ends
      obtain deferred | ⟨versioned, rest, agrees, part, ends⟩ := after_lookup before part (fun _ _ _ => load_ends)
          (fun _ outage => ⟨_, congrArg _ (congrArg _ (unusable_outage outage))⟩) ends
      · exact .inl deferred
      have version : named.seen cfg now (.tenant tenantID) .version (versionID d campaign) =
          w.seen cfg now (.tenant tenantID) .version (versionID d campaign) :=
        before.seen _ _ _ (by decide)
      rw [version] at ends
      cases found : w.seen cfg now (.tenant tenantID) .version (versionID d campaign) with
      | error e =>
          rw [found] at ends
          obtain ⟨rfl, rfl, rfl⟩ := ends
          refine .inr (.inl ⟨?_, _, rfl, unusable_missing (seen_error (by decide) found)⟩)
          rintro ⟨campaign, version, same, stored⟩
          cases owned.symm.trans same
          cases found.symm.trans stored
      | ok version =>
          rw [found] at ends
          obtain ⟨rfl, rfl, rfl⟩ := ends
          exact .inr (.inr ⟨_, rfl, set, ⟨campaign, version, owned, found⟩, agrees⟩)

theorem Listed.domainFor_error {id : Text} (listed : Listed cfg now tenantID d w snd tr)
    (failed : w.domainFor cfg now tenantID id = .error e) : e.kind = .notFound := by
  have viewed : ∃ holder, w.configState tenantID id = .ok holder := by
    have transport := listed.transport
    simp only [World.transportFor, World.configState, listed.platform] at transport ⊢
    cases seen : w.view with
    | error | ok => grind [Except.bind]
  obtain ⟨holder, configured⟩ := viewed
  simp only [World.domainFor, configured, Except.bind] at failed
  split at failed
  · cases failed
  · split at failed
    next absent =>
      cases failed
      exact seen_error (by decide) absent
    · cases failed

theorem route_ends {reply : Except DeliveryResult Route} (listed : Listed cfg now tenantID d w snd tr)
    (agrees : Agrees cfg now w start) (part : Failed trace → reason)
    (ends : (route cfg now o tenantID d).Ends Fault start trace reply after) :
    (∃ res, reply = .error res ∧ Deferred cfg o d w reason res after) ∨
      ∃ r, reply = .ok r ∧ r.transport = tr ∧ Agrees cfg now w after := by
  have sender := (agrees.seen _ _ _ (by decide)).trans listed.sender
  obtain deferred | ⟨named, rest, agrees, part, ends⟩ := after_lookup agrees part (fun _ _ _ => load_ends)
      (fun _ outage => ⟨_, congrArg _ (congrArg _ (unusable_outage outage))⟩) ends
  · exact .inl deferred
  rw [sender] at ends
  have transport : named.transportFor cfg now tenantID snd.transportID = .ok tr := by
    rw [← listed.transport]
    simp [World.transportFor, agrees.configState, agrees.seen _ .transport _ (by decide)]
  obtain deferred | ⟨routed, rest, agrees, part, ends⟩ := after_lookup agrees part (fun _ _ _ => transportFor_ends)
      (fun _ outage => ⟨_, congrArg _ (congrArg _ (unusable_outage outage))⟩) ends
  · exact .inl deferred
  rw [transport] at ends
  have domain : routed.domainFor cfg now tenantID snd.domainID = w.domainFor cfg now tenantID snd.domainID := by
    simp [World.domainFor, agrees.configState, agrees.seen _ .domain _ (by decide)]
  have hands (e : Err) (outage : Outage e) : e.kind ≠ .notFound := outage.ne (by decide)
  obtain deferred | ⟨signed, rest, agrees, part, ends⟩ :=
    after_lookup agrees part (fun _ _ _ => domainFor_ends) (fun e outage => ⟨_, if_pos (hands e outage)⟩) ends
  · exact .inl deferred
  rw [domain] at ends
  cases found : w.domainFor cfg now tenantID snd.domainID with
  | error e =>
      have missing : ¬e.kind ≠ .notFound := not_not.mpr (listed.domainFor_error found)
      simp only [found, if_neg missing] at ends
      obtain ⟨rfl, rfl, rfl⟩ := ends
      exact .inr ⟨_, rfl, rfl, agrees⟩
  | ok domain =>
      rw [found] at ends
      obtain ⟨rfl, rfl, rfl⟩ := ends
      exact .inr ⟨_, rfl, rfl, agrees⟩

theorem isSuppressed_ok (s : TenantStore) (now : Time) :
    ∃ suppressed, s.isSuppressed emailNorm now = .ok suppressed := by
  rw [TenantStore.isSuppressed]
  split <;> exact ⟨_, rfl⟩

theorem suppression_ends {reply : Except DeliveryResult Bool} {settings : TenantSettings}
    (listed : Listed cfg now tenantID d w snd tr) (agrees : Agrees cfg now w start)
    (part : Failed trace → reason) (lost : (∃ e, w.view = .error e) → reason)
    (enabled : settings.suppressionEnabled = true)
    (ends : (suppression cfg now o tenantID d settings tr).Ends Fault start trace reply after) :
    (∃ res, reply = .error res ∧ Deferred cfg o d w reason res after) ∨ reply = .ok true ∧ after.handed = w.handed := by
  rw [suppression, if_pos ⟨enabled, listed.lane⟩] at ends
  obtain deferred | ⟨asked, rest, agrees, part, ends⟩ :=
    after_lookup agrees part (fun _ _ _ => query_ends) (fun _ _ => ⟨_, rfl⟩) ends
  · exact .inl deferred
  obtain ⟨suppressed, answered⟩ := isSuppressed_ok (start.provider.tenants tenantID) now
  rw [answered] at ends
  cases suppressed with
  | true =>
      obtain ⟨rfl, rfl, rfl⟩ := ends
      exact .inr ⟨rfl, agrees.handed⟩
  | false =>
      have platform : (asked.view.bind fun _ =>
          (asked.provider.tenants systemTenantID).isSuppressed d.emailNorm now) = w.view.bind fun _ => .ok true := by
        rw [agrees.view, agrees.isSuppressed, listed.listed]
      obtain deferred | ⟨asked, rest, agrees, part, ends⟩ :=
        after_lookup agrees part (fun _ _ _ => platformSuppressed_ends listed.shared) (fun _ _ => ⟨_, rfl⟩) ends
      · exact .inl deferred
      rw [platform] at ends
      cases seen : w.view with
      | error e =>
          rw [seen] at ends
          obtain ⟨rfl, rfl, rfl⟩ := ends
          exact .inl ⟨_, rfl, lost ⟨e, seen⟩, ⟨_, _, rfl⟩, agrees.handed⟩
      | ok _ =>
          rw [seen] at ends
          obtain ⟨rfl, rfl, rfl⟩ := ends
          exact .inr ⟨rfl, agrees.handed⟩

/-- Sending through the platform to a listed address, a run is deferred, lacks
its content, consults the lists or goes on to the attempt. -/
theorem process_ends (listed : Listed cfg now tenantID d w snd tr)
    (ends : (process cfg now o tenantID d).Ends Fault w trace res after) :
    Deferred cfg o d w (Failed trace) res after ∨ (¬Versioned cfg now tenantID d w ∧ res.newStatus = .failed) ∨
      (Consulted cfg now tenantID d w ∧ Withheld cfg o d w trace res after) ∨
      ∃ c r start rest, w.seen cfg now (.tenant tenantID) .settings [] = .ok c.settings ∧
        c.settings.suppressionEnabled = false ∧ start.handed = w.handed ∧
        (attempt cfg now o tenantID d c r).Ends Fault start rest res after := by
  obtain ⟨read, later, reply, informed, rfl, reading, informing⟩ := ends_bind ends
  obtain ⟨_, rfl, deferred⟩ | ⟨lacking, _, rfl, failed⟩ | ⟨c, rfl, settings, versioned, agrees⟩ :=
    content_ends (fun failed => failed_append.mpr (.inl failed)) reading
  · obtain ⟨rfl, rfl, rfl⟩ := informing
    exact .inl deferred
  · obtain ⟨rfl, rfl, rfl⟩ := informing
    exact .inr (.inl ⟨lacking, failed⟩)
  obtain ⟨planned, later, reply, routed, rfl, planning, routing⟩ := ends_bind informing
  obtain ⟨_, rfl, deferred⟩ | ⟨r, rfl, rfl, agrees⟩ :=
    route_ends listed agrees (fun failed => failed_append.mpr (.inr (failed_append.mpr (.inl failed)))) planning
  · obtain ⟨rfl, rfl, rfl⟩ := routing
    exact .inl deferred
  obtain ⟨asked, later, reply, decided, rfl, asking, deciding⟩ := ends_bind routing
  cases enabled : c.settings.suppressionEnabled with
  | true =>
      have consulted : Consulted cfg now tenantID d w := ⟨versioned, c.settings, settings, enabled⟩
      have part (failed : Failed asked) : Unanswered w (read ++ (planned ++ (asked ++ later))) := by
        simp [Unanswered, failed_append, failed]
      obtain ⟨_, rfl, deferred⟩ | ⟨rfl, handed⟩ := suppression_ends listed agrees part .inr enabled asking
      · obtain ⟨rfl, rfl, rfl⟩ := deciding
        exact .inr (.inr (.inl ⟨consulted, .inr deferred⟩))
      · obtain ⟨rfl, rfl, rfl⟩ := deciding
        exact .inr (.inr (.inl ⟨consulted, .inl ⟨handed, rfl⟩⟩))
  | false =>
      simp only [suppression, enabled, Bool.false_eq_true, false_and] at asking
      obtain ⟨rfl, rfl, rfl⟩ := asking
      exact .inr (.inr (.inr ⟨c, r, _, later, settings, enabled, agrees.handed, deciding⟩))

end

/-- Everything outside lets the message through; the receiver takes it and asks
for it again later. -/
def greylisting : Outside where
  clock := 0
  sendStart := 0
  finished := 0
  rand := 0
  cancelled := false
  renderMessage c snd d := .ok (
    { tenantID := d.tenantID, deliveryID := d.id, campaignID := d.campaignID, versionID := c.version.id
      senderID := d.senderID, lane := d.lane, fromName := snd.fromName, source := snd.fromEmail
      replyTo := snd.replyTo, subject := c.version.subjectTpl, html := c.version.htmlTpl
      body := c.version.textTpl, headers := d.headers, unsubscribeURL := [] }, {})
  beforeSend := none
  dkimFor _ := none
  buildMessage input := .ok input.msg.html
  verpAddress _ _ _ := []
  wait _ := none
  decrypt secret := .ok secret
  connect _ _ := none
  send _ := { errorClass := .transient, code := 451 }

variable {cfg : Config} {d : Delivery} {w after : World} {trace : Prog.Trace Call} {res : DeliveryResult}

theorem attempt_greylisting {now : Time}
    (ends : (attempt cfg now greylisting tenantID d c r).Ends Fault w trace res after) :
    (∃ e, after.handed = w.handed ++ [e]) ∨ (res.newStatus = .queued ∧ res.errorClass = .auth) := by
  obtain ⟨later, ⟨rfl, looked⟩ | ⟨rfl, e, fault, -⟩⟩ := ends_query ends
  · cases usable : transportUsable w.health tenantID r.transport now with
    | false =>
        rw [usable] at looked
        obtain ⟨rfl, rfl, rfl⟩ := looked
        exact .inr ⟨rfl, rfl⟩
    | true =>
        rw [usable] at looked
        obtain ⟨trying, rest, outcome, sent, rfl, transmitting, recording⟩ := ends_bind looked
        obtain ⟨password, known⟩ : ∃ password, Process.password greylisting r.transport = .ok password := by
          rw [Process.password]
          split <;> exact ⟨_, rfl⟩
        rw [transmit, known] at transmitting
        obtain ⟨later, ⟨rfl, handing⟩ | ⟨rfl, e, fault, -⟩⟩ := ends_invoke transmitting
        · obtain ⟨rfl, rfl, rfl⟩ := handing
          obtain ⟨rfl, rfl, rfl⟩ := recording
          exact .inl ⟨_, rfl⟩
        · exact absurd rfl fault.1
  · exact absurd rfl fault.1

theorem Withheld.status (withheld : Withheld cfg o d w trace res after) :
    after.handed = w.handed ∧ (res.newStatus = .suppressed ∨ (res.newStatus = .queued ∧ res.errorClass = .none)) := by
  obtain ⟨handed, suppressed⟩ | ⟨-, ⟨what, message, rfl⟩, handed⟩ := withheld
  · exact ⟨handed, .inl suppressed⟩
  · exact ⟨handed, .inr ⟨rfl, rfl⟩⟩

/-- A delivery that goes through a transport of the platform to an address the
platform has listed is withheld in every run exactly if the tenant has not
switched suppression off and the run gets as far as the lists. -/
theorem withheld_iff_consulted {cfg : Config} {now : Time} {tenantID : Text} {d : Delivery} {w : World}
    {snd : Sender} {tr : Transport} (listed : Listed cfg now tenantID d w snd tr) :
    (∀ (o : Outside) (trace : Prog.Trace Call) (res : DeliveryResult) (after : World),
      (process cfg now o tenantID d).Ends Call.Fault w trace res after →
      Withheld cfg o d w trace res after) ↔ Consulted cfg now tenantID d w := by
  constructor
  · intro withheld
    obtain ⟨trace, smooth, ends⟩ := ends_exec Fault (process cfg now greylisting tenantID d) w
    obtain ⟨handed, status⟩ := (withheld _ _ _ _ ends).status
    obtain deferred | ⟨-, failed⟩ | ⟨consulted, -⟩ | ⟨c, r, start, rest, -, -, before, attempted⟩ :=
      process_ends listed ends
    · exact absurd deferred.reason smooth
    · simp [failed] at status
    · exact consulted
    · obtain ⟨e, sent⟩ | ⟨queued, refused⟩ := attempt_greylisting attempted
      · rw [handed, before] at sent
        simp at sent
      · simp [queued, refused] at status
  · intro consulted o trace res after ends
    obtain deferred | ⟨lacking, -⟩ | ⟨-, withheld⟩ | ⟨c, r, start, rest, set, disabled, -⟩ := process_ends listed ends
    · exact .inr ⟨.inl deferred.reason, deferred.deferral, deferred.handed⟩
    · exact absurd consulted.1 lacking
    · exact withheld
    · obtain ⟨-, settings, found, enabled⟩ := consulted
      rw [set, Except.ok.injEq] at found
      rw [← found, disabled] at enabled
      cases enabled

def relay : Transport where
  id := text "sys:relay"
  shared := true

def relaySender : Sender where
  id := text "sys:news"
  fromEmail := text "news@relay.example"
  transportID := text "sys:relay"
  shared := true

def claimedDelivery : Delivery where
  id := text "d1"
  tenantID := text "acme"
  versionID := text "v1"
  senderID := text "sys:news"
  lane := .transactional
  status := .leased
  email := text "bob@example.com"
  emailNorm := text "bob@example.com"
  leaseOwner := text "w1"
  leaseUntil := 10

/-- One tenant, with or without suppression, and an address that has bounced on
the relay of the platform. -/
def relayWorld (suppressionEnabled : Bool) : World where
  provider := {
    platformTransports := [relay]
    platformSenders := [relaySender]
    tenants := fun t =>
      if t = systemTenantID then
        { tenant := systemTenantID
          suppressions := (∅ : Table Text Suppression).insert (text "bob@example.com")
            { emailNorm := text "bob@example.com", reason := .hardBounce } }
      else
        { tenant := t
          deliveries := (∅ : Table Text Delivery).insert (text "d1") claimedDelivery
          versions := (∅ : Table Text MessageVersion).insert (text "v1") { id := text "v1", htmlTpl := text "hello" }
          settings := some { tenantID := t, suppressionEnabled } } }

def replica : Config where
  workerID := text "w1"

theorem relayWorld_listed : Listed replica 5 (text "acme") claimedDelivery (relayWorld suppressionEnabled)
      { relaySender with tenantID := text "acme" } relay where
  lane := by decide
  sender := rfl
  platform := rfl
  transport := rfl
  shared := rfl
  listed := rfl

theorem relayWorld_versioned : Versioned replica 5 (text "acme") claimedDelivery (relayWorld suppressionEnabled) :=
  ⟨none, { id := text "v1", htmlTpl := text "hello" }, rfl, rfl⟩

theorem listed_address_is_suppressed :
    Consulted replica 5 (text "acme") claimedDelivery (relayWorld true) ∧
      ∃ trace, Withheld replica greylisting claimedDelivery (relayWorld true) trace
        ((process replica 5 greylisting (text "acme") claimedDelivery).exec (relayWorld true)).1
        ((process replica 5 greylisting (text "acme") claimedDelivery).exec (relayWorld true)).2 := by
  have consulted : Consulted replica 5 (text "acme") claimedDelivery (relayWorld true) :=
    ⟨relayWorld_versioned, _, rfl, rfl⟩
  obtain ⟨trace, -, ends⟩ := ends_exec Fault
    (process replica 5 greylisting (text "acme") claimedDelivery) (relayWorld true)
  exact ⟨consulted, trace, (withheld_iff_consulted relayWorld_listed).mpr consulted _ _ _ _ ends⟩

def accepting : Outside :=
  { greylisting with send := fun _ => { code := 250 } }

/-- With suppression switched off, the message to the listed address is sent. -/
theorem listed_address_is_mailed :
    Listed replica 5 (text "acme") claimedDelivery (relayWorld false)
        { relaySender with tenantID := text "acme" } relay ∧
      ((process replica 5 accepting (text "acme") claimedDelivery).exec (relayWorld false)).1.newStatus = .sent ∧
      ((process replica 5 accepting (text "acme") claimedDelivery).exec (relayWorld false)).2.handed =
        [⟨text "sys:relay", text "news@relay.example", text "bob@example.com", text "hello"⟩] ∧
      ¬∀ (o : Outside) (trace : Prog.Trace Call) (res : DeliveryResult) (after : World),
        (process replica 5 o (text "acme") claimedDelivery).Ends Call.Fault (relayWorld false) trace res after →
        Withheld replica o claimedDelivery (relayWorld false) trace res after := by
  have sent : ((process replica 5 accepting (text "acme") claimedDelivery).exec
      (relayWorld false)).1.newStatus = .sent := by decide +kernel
  have handed : ((process replica 5 accepting (text "acme") claimedDelivery).exec (relayWorld false)).2.handed =
      [⟨text "sys:relay", text "news@relay.example", text "bob@example.com", text "hello"⟩] := by decide +kernel
  refine ⟨relayWorld_listed, sent, handed, fun withheld => ?_⟩
  obtain ⟨trace, -, ends⟩ := ends_exec Fault
    (process replica 5 accepting (text "acme") claimedDelivery) (relayWorld false)
  have kept := (withheld _ _ _ _ ends).status.1
  cases kept

end Sendplane.Sender.Process
