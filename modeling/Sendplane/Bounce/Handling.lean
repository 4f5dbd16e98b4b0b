import Sendplane.Bounce.Process

namespace Sendplane.Bounce

open Data Store Memstore Prog DeliveryRepo TenantStore Provider Processor

/-- No call fails. -/
def Smooth (trace : Prog.Trace Call) : Prop :=
  ∀ call ∈ trace, call.2 = false

@[simp] theorem smooth_nil : Smooth [] := by
  simp [Smooth]

@[simp] theorem smooth_append : Smooth (first ++ second) ↔ Smooth first ∧ Smooth second := by
  simp [Smooth, forall_and]

@[simp] theorem smooth_cons : Smooth ((tag, failed) :: later) ↔ failed = false ∧ Smooth later := by
  simp [Smooth]

/-- The address is suppressed for good. -/
def Listed (p : Provider) (tenantID emailNorm : Text) : Prop :=
  ∃ row, (p.tenants tenantID).suppressions[emailNorm]? = some row ∧ row.expiresAt = 0

/-- The delivery went out through a transport of the operator. -/
def SharedTransport (p : Provider) (tenantID : Text) (d : Delivery) : Prop :=
  d.senderID ≠ [] ∧ ∃ snd, p.senderGet tenantID d.senderID = .ok snd ∧ isPlatformID snd.transportID = true

variable {p : Provider} {tenantID : Text} {d : Delivery}

theorem sharedTransport_put (kept : s.senders = (p.tenants other).senders) :
    SharedTransport (p.put other s) tenantID d ↔ SharedTransport p tenantID d := by
  simp [SharedTransport, senderGet_put kept]

theorem not_shared_of_missing (missing : p.senderGet tenantID d.senderID = .error e) :
    ¬SharedTransport p tenantID d := by
  rintro ⟨_, snd, stored, _⟩
  rw [missing] at stored
  cases stored

theorem not_shared_of_own (stored : p.senderGet tenantID d.senderID = .ok snd)
    (own : isPlatformID snd.transportID = false) : ¬SharedTransport p tenantID d := by
  rintro ⟨_, other, found, virtual⟩
  rw [stored] at found
  cases found
  rw [own] at virtual
  cases virtual

/-- Only suppression lists change, and none loses the address. -/
structure SuppressionFrame (emailNorm : Text) (before after : Provider) : Prop where
  lists : ∀ t, ∃ suppressions, after.tenants t = { before.tenants t with suppressions }
  kept : ∀ t, Listed before t emailNorm → Listed after t emailNorm
  senders : ∀ t id, after.senderGet t id = before.senderGet t id

namespace SuppressionFrame

variable {emailNorm : Text} {before after : Provider}

theorem refl (p : Provider) : SuppressionFrame emailNorm p p :=
  ⟨fun _ => ⟨_, rfl⟩, fun _ listed => listed, fun _ _ => rfl⟩

theorem trans (first : SuppressionFrame emailNorm before middle)
    (second : SuppressionFrame emailNorm middle after) : SuppressionFrame emailNorm before after := by
  refine ⟨fun t => ?_, fun t listed => second.kept t (first.kept t listed),
    fun t id => (second.senders t id).trans (first.senders t id)⟩
  obtain ⟨_, changed⟩ := first.lists t
  obtain ⟨suppressions, again⟩ := second.lists t
  exact ⟨suppressions, by rw [again, changed]⟩

section

variable (frame : SuppressionFrame emailNorm before after)
include frame

theorem deliveries (t : Text) : (after.tenants t).deliveries = (before.tenants t).deliveries := by
  obtain ⟨_, same⟩ := frame.lists t
  rw [same]

theorem bounces (t : Text) : (after.tenants t).bounces = (before.tenants t).bounces := by
  obtain ⟨_, same⟩ := frame.lists t
  rw [same]

theorem outbox (t : Text) : (after.tenants t).outbox = (before.tenants t).outbox := by
  obtain ⟨_, same⟩ := frame.lists t
  rw [same]

theorem settings (t : Text) : (after.tenants t).settings = (before.tenants t).settings := by
  obtain ⟨_, same⟩ := frame.lists t
  rw [same]

end

end SuppressionFrame

section

variable {proc : Processor} {tenantID : Text} {d : Delivery} {now : Time} {p after : Provider}
  {trace : Prog.Trace Call}

def listing (p : Provider) (tenantID : Text) (row : Suppression) : Provider :=
  p.put tenantID { p.tenants tenantID with
    suppressions := (p.tenants tenantID).suppressions.insert row.emailNorm row }

theorem listing_lists (permanent : row.expiresAt = 0) : Listed (listing p tenantID row) tenantID row.emailNorm :=
  ⟨row, by rw [listing, put_same]; exact Table.get_insert_same .., permanent⟩

theorem listing_frame (permanent : row.expiresAt = 0) : SuppressionFrame row.emailNorm p (listing p tenantID row) := by
  refine ⟨fun t => ?_, fun t listed => ?_, fun t id => senderGet_put rfl⟩
  · rw [listing, put_get]
    split
    next same => exact ⟨_, by rw [same]⟩
    · exact ⟨_, rfl⟩
  · by_cases same : t = tenantID
    · rw [same]
      exact listing_lists permanent
    · rw [Listed, listing, put_get, if_neg same]
      exact listed

theorem upsert_act (p : Provider) (tenantID : Text) (reason : SuppressionReason) (now : Time)
    (addressed : d.emailNorm ≠ []) :
    ∃ row, row.emailNorm = d.emailNorm ∧ row.expiresAt = 0 ∧ (forTenant tenantID).act
        (suppressionUpsert (suppression d reason now)) p = (.ok (), listing p tenantID row) := by
  refine ⟨(p.tenants tenantID).storedSuppression (suppression d reason now), rfl, rfl, ?_⟩
  simp only [Lens.act, suppressionUpsert, suppression, addressed]
  rfl

theorem suppressPlatform_ends (platform : proc.platform = true) (addressed : d.emailNorm ≠ [])
    (ends : (proc.suppressPlatform tenantID d reason now).Ends (fun _ => Outage) p trace reply after) :
    SuppressionFrame d.emailNorm p after ∧ (reply = none ↔ Smooth trace) ∧
      (reply = none → SharedTransport p tenantID d → Listed after systemTenantID d.emailNorm) := by
  by_cases anonymous : d.senderID = []
  · simp only [suppressPlatform, anonymous, true_or, or_true] at ends
    obtain ⟨rfl, rfl, rfl⟩ := ends
    exact ⟨.refl _, by simp, fun _ shared => absurd anonymous shared.1⟩
  simp only [suppressPlatform, platform, addressed, anonymous, Bool.not_true, Bool.false_eq_true, or_self] at ends
  obtain ⟨later, ⟨rfl, looked⟩ | ⟨rfl, failure, outage, failed⟩⟩ := ends_query ends
  · cases found : p.senderGet tenantID d.senderID with
    | error e =>
        simp only [found, senderGet_error found] at looked
        obtain ⟨rfl, rfl, rfl⟩ := looked
        exact ⟨.refl _, by simp, fun _ shared => absurd shared (not_shared_of_missing found)⟩
    | ok snd =>
        cases virtual : isPlatformID snd.transportID with
        | false =>
            simp only [found, virtual, Bool.not_false] at looked
            obtain ⟨rfl, rfl, rfl⟩ := looked
            exact ⟨.refl _, by simp, fun _ shared => absurd shared (not_shared_of_own found virtual)⟩
        | true =>
            simp only [found, virtual, Bool.not_true, Bool.false_eq_true] at looked
            obtain ⟨later, ⟨rfl, viewed⟩ | ⟨rfl, failure, outage, failed⟩⟩ := ends_query looked
            · obtain ⟨later, ⟨rfl, put⟩ | ⟨rfl, failure, outage, failed⟩⟩ := ends_invoke viewed
              · obtain ⟨row, email, permanent, upserted⟩ := upsert_act p systemTenantID reason now addressed
                simp only [upserted] at put
                obtain ⟨rfl, rfl, rfl⟩ := put
                rw [← email]
                exact ⟨listing_frame permanent, by simp, fun _ _ => listing_lists permanent⟩
              · obtain ⟨rfl, rfl, rfl⟩ := failed
                exact ⟨.refl _, by simp, by simp⟩
            · obtain ⟨rfl, rfl, rfl⟩ := failed
              exact ⟨.refl _, by simp, by simp⟩
  · have refused : failure.kind ≠ .notFound := outage.ne (by decide)
    simp only [refused] at failed
    obtain ⟨rfl, rfl, rfl⟩ := failed
    exact ⟨.refl _, by simp, by simp⟩

variable {settings : TenantSettings}

theorem suppress_ends (platform : proc.platform = true) (addressed : d.emailNorm ≠ []) (mailing : d.lane ≠ .probe)
    (enabled : settings.suppressionEnabled = true)
    (ends : (proc.suppress tenantID settings d reason out now).Ends (fun _ => Outage) p trace reply after) :
    SuppressionFrame d.emailNorm p after ∧ reply.1.parsed = out.parsed ∧ (reply.2 = none ↔ Smooth trace) ∧
      (reply.2 = none → Listed after tenantID d.emailNorm ∧
        (SharedTransport p tenantID d → Listed after systemTenantID d.emailNorm)) := by
  simp only [suppress, mailing, enabled] at ends
  obtain ⟨later, ⟨rfl, put⟩ | ⟨rfl, failure, outage, failed⟩⟩ := ends_invoke ends
  · obtain ⟨row, email, permanent, upserted⟩ := upsert_act p tenantID reason now addressed
    simp only [upserted] at put
    have frame : SuppressionFrame d.emailNorm p (listing p tenantID row) := by
      rw [← email]
      exact listing_frame permanent
    have listed : Listed (listing p tenantID row) tenantID d.emailNorm := by
      rw [← email]
      exact listing_lists permanent
    obtain ⟨first, second, answer, store, rfl, platformPart, returned⟩ := ends_bind put
    obtain ⟨rfl, rfl, rfl⟩ := returned
    obtain ⟨platformFrame, smooth, shared⟩ := suppressPlatform_ends platform addressed platformPart
    refine ⟨frame.trans platformFrame, rfl, by simpa using smooth, fun succeeded => ?_⟩
    refine ⟨platformFrame.kept tenantID listed, fun through => shared succeeded ?_⟩
    obtain ⟨named, snd, stored, virtual⟩ := through
    exact ⟨named, snd, by rw [frame.senders, stored], virtual⟩
  · obtain ⟨rfl, rfl, rfl⟩ := failed
    exact ⟨.refl _, rfl, by simp, by simp⟩

/-- The delivery has the status that the report calls for. -/
def Marked (parsed : Parsed) (tenantID : Text) (d : Delivery) (p : Provider) : Prop :=
  ∃ row, (p.tenants tenantID).deliveries[d.id]? = some row ∧ row.status = Processor.markedStatus parsed.type

/-- Exactly one event was put in the outbox, and it tells of the delivery. -/
def Announced (parsed : Parsed) (tenantID : Text) (d : Delivery) (id : Text) (before after : Provider) : Prop :=
  ∃ ev body, (after.tenants tenantID).outbox = (before.tenants tenantID).outbox.insert id ev ∧
    ev.type = Processor.eventType parsed.type ∧ ev.payload = .bounce body ∧ body.deliveryID = d.id ∧
    body.status = Processor.markedStatus parsed.type

variable {parsed : Parsed} {a : Attempt}

def marking (p : Provider) (tenantID : Text) (type : BounceType) (id : Text) (now : Time) : Provider :=
  p.put tenantID { p.tenants tenantID with
    deliveries := (p.tenants tenantID).deliveries.modify id
      (markTerminalRow (Processor.markedStatus type) now) }

theorem mark_act (stored : (p.tenants tenantID).deliveries[d.id]? = some d) (sent : d.status = .sent) :
    (forTenant tenantID).act (mark type d.id now) p = (.ok true, marking p tenantID type d.id now) := by
  by_cases complaint : type = .complaint
  · simp only [Lens.act, mark, complaint, ↓reduceIte, deliveryMarkComplained,
      markComplained, markTerminal, forTenant_get, stored, sent, marking]
    rfl
  · simp only [Lens.act, mark, complaint, ↓reduceIte, deliveryMarkBounced,
      markBounced, markTerminal, forTenant_get, stored, sent, marking, markedStatus]
    rfl

theorem marking_marked (stored : (p.tenants tenantID).deliveries[d.id]? = some d) :
    Marked parsed tenantID d (marking p tenantID parsed.type d.id now) := by
  refine ⟨markTerminalRow (markedStatus parsed.type) now d, ?_, rfl⟩
  simp [marking, stored]

theorem enqueueEvent_ends {reply : Except Err Unit}
    (ends : (enqueueEvent tenantID d parsed (eventType parsed.type) (markedStatus parsed.type) suppressed a).Ends
      (fun _ => Outage) p trace reply after) :
    (∃ e, reply = .error e ∧ ¬Smooth trace ∧ after = p) ∨
      (reply = .ok () ∧ Smooth trace ∧ Announced parsed tenantID d a.outboxID p after ∧
        ∃ outbox, after = p.put tenantID { p.tenants tenantID with outbox }) := by
  obtain ⟨later, ⟨rfl, returned⟩ | ⟨rfl, failure, outage, failed⟩⟩ := ends
  · obtain ⟨rfl, rfl, rfl⟩ := returned
    refine .inr ⟨rfl, by simp, ?_, _, rfl⟩
    simp only [Announced, Lens.act, forTenant_set, put_same]
    exact ⟨_, _, rfl, rfl, rfl, rfl, rfl⟩
  · obtain ⟨rfl, rfl, rfl⟩ := failed
    exact .inl ⟨failure, rfl, by simp, rfl⟩

theorem listed_outbox {t emailNorm : Text} {outbox : Table Text OutboxEvent} (listed : Listed p t emailNorm) :
    Listed (p.put tenantID { p.tenants tenantID with outbox }) t emailNorm := by
  rw [Listed, put_get]
  split
  next same =>
    rw [same] at listed
    exact listed
  · exact listed

/-- The three ways the change of a sent delivery can go: the mark fails, the
delivery is marked and nothing is announced, or everything is done. -/
theorem transition_ends (platform : proc.platform = true) (addressed : d.emailNorm ≠ []) (mailing : d.lane ≠ .probe)
    (enabled : settings.suppressionEnabled = true) (stored : (p.tenants tenantID).deliveries[d.id]? = some d)
    (sent : d.status = .sent)
    (ends : (proc.transition tenantID settings out d a).Ends (fun _ => Outage) p trace reply after) :
    (reply.2 ≠ none ∧ ¬Smooth trace ∧ after = p) ∨
      (Marked out.parsed tenantID d after ∧ (after.tenants tenantID).bounces = (p.tenants tenantID).bounces ∧
        (after.tenants tenantID).settings = (p.tenants tenantID).settings ∧
        ((reply.2 ≠ none ∧ ¬Smooth trace ∧ (after.tenants tenantID).outbox = (p.tenants tenantID).outbox) ∨
          (reply.2 = none ∧ Smooth trace ∧ Announced out.parsed tenantID d a.outboxID p after ∧
            Listed after tenantID d.emailNorm ∧
            (SharedTransport p tenantID d → Listed after systemTenantID d.emailNorm)))) := by
  obtain ⟨later, ⟨rfl, changed⟩ | ⟨rfl, failure, outage, failed⟩⟩ := ends_invoke ends
  · simp only [mark_act stored sent, Bool.not_true, Bool.false_eq_true] at changed
    have marked : Marked out.parsed tenantID d (marking p tenantID out.parsed.type d.id a.now) := marking_marked stored
    obtain ⟨first, second, ⟨answer, error⟩, middle, rfl, suppressing, rest⟩ := ends_bind changed
    obtain ⟨frame, same, smooth, listed⟩ := suppress_ends platform addressed mailing enabled suppressing
    have outbox : (middle.tenants tenantID).outbox = (p.tenants tenantID).outbox := by
      rw [frame.outbox, marking, put_same]
    have bounces : (middle.tenants tenantID).bounces = (p.tenants tenantID).bounces := by
      rw [frame.bounces, marking, put_same]
    have settings : (middle.tenants tenantID).settings = (p.tenants tenantID).settings := by
      rw [frame.settings, marking, put_same]
    have done : Marked out.parsed tenantID d middle := by
      rw [Marked, frame.deliveries]
      exact marked
    right
    cases error with
    | some e =>
        obtain ⟨rfl, rfl, rfl⟩ := rest
        exact ⟨done, bounces, settings, .inl ⟨by simp, by simpa using smooth, outbox⟩⟩
    | none =>
        have succeeded : Smooth first := smooth.mp rfl
        obtain ⟨tenantList, platformList⟩ := listed rfl
        dsimp only at same rest
        rw [same] at rest
        obtain ⟨third, fourth, sent, final, rfl, enqueueing, returned⟩ := ends_bind rest
        rcases enqueueEvent_ends enqueueing with ⟨e, rfl, rough, rfl⟩ | ⟨rfl, calm, announced, _, rfl⟩
        · obtain ⟨rfl, rfl, rfl⟩ := returned
          exact ⟨done, bounces, settings, .inl ⟨by simp, by simp [rough], outbox⟩⟩
        · obtain ⟨rfl, rfl, rfl⟩ := returned
          refine ⟨?_, ?_, ?_, .inr ⟨rfl, by simp [succeeded, calm], ?_, listed_outbox tenantList, fun shared => ?_⟩⟩
          · rw [Marked, put_same]
            exact done
          · rw [put_same]
            exact bounces
          · rw [put_same]
            exact settings
          · rw [Announced, ← outbox]
            exact announced
          · exact listed_outbox (platformList ((sharedTransport_put (by rfl)).mpr shared))
  · obtain ⟨rfl, rfl, rfl⟩ := failed
    exact .inl ⟨by simp, by simp, rfl⟩

/-- Exactly one bounce event was recorded, and it is about the delivery. -/
def Recorded (parsed : Parsed) (tenantID : Text) (d : Delivery) (id : Text) (before after : Provider) : Prop :=
  ∃ ev, (after.tenants tenantID).bounces = (before.tenants tenantID).bounces.insert id ev ∧
    ev.deliveryID = d.id ∧ ev.type = parsed.type

/-- A verified report of a hard bounce or a complaint, for a mail that was no probe. -/
structure Report (tenantID : Text) (parsed : Parsed) (d : Delivery) : Prop where
  severe : parsed.type = .hard ∨ parsed.type = .complaint
  genuine : parsed.autoReply = false
  names : parsed.correlation.deliveryID = d.id
  identified : d.id ≠ []
  own : parsed.correlation.tenantID = [] ∨ parsed.correlation.tenantID = tenantID
  verified : parsed.correlation.verified = true
  mailing : d.lane ≠ .probe
  addressed : d.emailNorm ≠ []

theorem Report.not_soft (report : Report tenantID parsed d) : parsed.type ≠ .soft := by
  rcases report.severe with same | same <;> rw [same] <;> decide

/-- What is left after the event was recorded: the delivery is still sent, or
it is marked and nothing was announced, or everything was done. -/
inductive Followed (parsed : Parsed) (tenantID : Text) (d : Delivery) (a : Attempt)
    (before after : Provider) (rest : Prog.Trace Call) (error : Option Err) : Prop where
  | unmarked (failed : error ≠ none) (rough : ¬Smooth rest)
      (deliveries : (after.tenants tenantID).deliveries = (before.tenants tenantID).deliveries)
      (outbox : (after.tenants tenantID).outbox = (before.tenants tenantID).outbox)
  | unannounced (failed : error ≠ none) (rough : ¬Smooth rest) (marked : Marked parsed tenantID d after)
      (outbox : (after.tenants tenantID).outbox = (before.tenants tenantID).outbox)
  | complete (succeeded : error = none) (smooth : Smooth rest) (marked : Marked parsed tenantID d after)
      (announced : Announced parsed tenantID d a.outboxID before after)
      (listed : Listed after tenantID d.emailNorm)
      (platform : SharedTransport before tenantID d → Listed after systemTenantID d.emailNorm)

variable {msg : Message}

theorem record_ends (named : a.bounceID ≠ []) (fresh : (p.tenants tenantID).bounces[a.bounceID]? = none)
    (ends : (proc.record tenantID settings out msg (some d) a).Ends (fun _ => Outage) p trace reply after) :
    (∃ e, reply = (out, some e) ∧ trace = [(.createBounce, true)] ∧ after = p) ∨
      (reply = ({ out with recorded := true, eventID := a.bounceID }, none) ∧
        trace = [(.createBounce, false)] ∧
        ∃ ev, after = p.put tenantID { p.tenants tenantID with
            bounces := (p.tenants tenantID).bounces.insert a.bounceID ev } ∧
          ev.deliveryID = out.parsed.correlation.deliveryID ∧ ev.type = out.parsed.type) := by
  obtain ⟨later, ⟨rfl, returned⟩ | ⟨rfl, failure, outage, failed⟩⟩ := ends_invoke ends
  · obtain ⟨row, created⟩ := bounceCreate_fresh a.bounceID
      (proc.bounceEvent settings out.parsed msg (some d) a) named fresh
    simp only [Lens.act, forTenant_get, created] at returned
    obtain ⟨rfl, rfl, rfl⟩ := returned
    have stored := createdRow_bounce (p.tenants tenantID).tenant (p.tenants tenantID).now
      (proc.bounceEvent settings out.parsed msg (some d) a)
    exact .inr ⟨rfl, rfl, _, rfl, stored.2.1, stored.2.2.1⟩
  · obtain ⟨rfl, rfl, rfl⟩ := failed
    exact .inl ⟨_, rfl, rfl, rfl⟩

theorem handleVerified_ends (platform : proc.platform = true) (report : Report tenantID out.parsed d)
    (enabled : settings.suppressionEnabled = true) (stored : (p.tenants tenantID).deliveries[d.id]? = some d)
    (sent : d.status = .sent) (named : a.bounceID ≠ []) (fresh : (p.tenants tenantID).bounces[a.bounceID]? = none)
    (ends : (proc.handleVerified tenantID settings out msg d a).Ends (fun _ => Outage) p trace reply after) :
    (reply.2 ≠ none ∧ trace = [(.createBounce, true)] ∧ after = p) ∨
      ∃ rest, trace = (.createBounce, false) :: rest ∧ Recorded out.parsed tenantID d a.bounceID p after ∧
        (after.tenants tenantID).settings = (p.tenants tenantID).settings ∧
        Followed out.parsed tenantID d a p after rest reply.2 := by
  simp only [handleVerified, sent, ne_eq, not_true_eq_false] at ends
  obtain ⟨first, rest, middle, store, rfl, recording, following⟩ := ends_bind ends
  rcases record_ends named fresh recording with ⟨e, rfl, rfl, rfl⟩ | ⟨rfl, rfl, ev, rfl, names, type⟩
  · obtain ⟨rfl, rfl, rfl⟩ := following
    exact .inl ⟨by simp, rfl, rfl⟩
  · simp only [report.not_soft] at following
    have recorded {final : Provider}
        (same : (final.tenants tenantID).bounces = (p.tenants tenantID).bounces.insert a.bounceID ev) :
        Recorded out.parsed tenantID d a.bounceID p final :=
      ⟨ev, same, names.trans report.names, type⟩
    refine .inr ⟨rest, rfl, ?_⟩
    rcases transition_ends platform report.addressed report.mailing enabled
      (by rw [put_same]; exact stored) sent following with
      ⟨failed, rough, rfl⟩ | ⟨marked, bounces, kept, ⟨failed, rough, outbox⟩ | ⟨done, smooth, announced, listed, shared⟩⟩
    · rw [put_same]
      exact ⟨recorded (by rw [put_same]), rfl, .unmarked failed rough (by rw [put_same])
        (by rw [put_same])⟩
    · rw [put_same] at bounces kept outbox
      exact ⟨recorded bounces, kept, .unannounced failed rough marked outbox⟩
    · rw [put_same] at bounces kept
      rw [Announced, put_same] at announced
      exact ⟨recorded bounces, kept, .complete done smooth marked announced listed
        fun through => shared ((sharedTransport_put (by rfl)).mpr through)⟩

/-- The message parses to the report under the keys of the tenant, whose
suppression is enabled.  A tenant without a settings row gets fresh keys. -/
def Understood (proc : Processor) (msg : Message) (parsed : Parsed) (s : TenantStore) : Prop :=
  match s.settings with
  | some v => v.suppressionEnabled = true ∧ proc.parseWithKeys msg.raw v.tracking.signingKeys = .ok parsed
  | none => ∀ keys, proc.parseWithKeys msg.raw keys = .ok parsed

theorem understood_congr (same : other.settings = s.settings) (understood : Understood proc msg parsed s) :
    Understood proc msg parsed other := by
  rw [Understood, same]
  exact understood

theorem loadSettings_ends {reply : Except Err TenantSettings}
    (understood : Understood proc msg parsed (p.tenants tenantID))
    (ends : ((loadTenantSettings Call.loadSettings tenantID a.key a.now).zoom
      (forTenant tenantID)).Ends (fun _ => Outage) p trace reply after) :
    (∃ settings, after = p.put tenantID { p.tenants tenantID with settings }) ∧
      Understood proc msg parsed (after.tenants tenantID) ∧ (∀ call ∈ trace, call.1 = .loadSettings) ∧
      ∀ v, reply = .ok v →
        v.suppressionEnabled = true ∧ proc.parseWithKeys msg.raw v.tracking.signingKeys = .ok parsed := by
  obtain ⟨inner, whole⟩ := ends_zoom ends
  simp only [forTenant_get] at inner whole
  obtain ⟨tagged, ⟨e, rfl, same⟩ | ⟨v, rfl, stored, same⟩ | ⟨v, rfl, absent, created⟩⟩ := loadTenantSettings_ends inner
  · rw [same] at whole ⊢
    exact ⟨⟨_, whole⟩, understood, tagged, by simp⟩
  · rw [same] at whole ⊢
    refine ⟨⟨_, whole⟩, understood, tagged, fun other answered => ?_⟩
    cases answered
    rw [Understood, stored] at understood
    exact understood
  · obtain ⟨row, kept, fresh, enabled, stays⟩ :=
      settingsCreate_absent (defaultTenantSettings tenantID a.key a.now) absent
    rw [fresh] at created
    obtain ⟨same, final⟩ := Prod.mk.inj created
    cases same
    rw [← final] at whole ⊢
    rw [Understood, absent] at understood
    refine ⟨⟨_, whole⟩, ⟨stays, understood _⟩, tagged, fun other answered => ?_⟩
    cases answered
    exact ⟨enabled, understood _⟩

/-- An attempt reads the settings and the delivery and then, if no call failed
so far, depends on the delivery's status. -/
theorem handle_ends (report : Report tenantID parsed d) (understood : Understood proc msg parsed (p.tenants tenantID))
    (stored : (p.tenants tenantID).deliveries[d.id]? = some row)
    (ends : (proc.handle tenantID msg a).Ends (fun _ => Outage) p trace reply after) :
    ∃ settings first rest, trace = first ++ rest ∧ (∀ call ∈ first, call.1 ≠ .createBounce) ∧
      Understood proc msg parsed { p.tenants tenantID with settings } ∧
      ((reply.2 ≠ none ∧ rest = [] ∧ after = p.put tenantID { p.tenants tenantID with settings }) ∨
        ∃ v, v.suppressionEnabled = true ∧ (proc.handleVerified tenantID v { parsed } msg row a).Ends (fun _ => Outage)
            (p.put tenantID { p.tenants tenantID with settings }) rest reply after) := by
  obtain ⟨first, rest, loaded, store, rfl, loading, following⟩ := ends_bind ends
  obtain ⟨⟨settings, rfl⟩, still, tagged, usable⟩ := loadSettings_ends understood loading
  rw [put_same] at still
  have early : ∀ call ∈ first, call.1 ≠ .createBounce := by
    intro call member
    rw [tagged call member]
    decide
  cases loaded with
  | error e =>
      obtain ⟨rfl, rfl, rfl⟩ := following
      exact ⟨settings, first, [], rfl, early, still, .inl ⟨by simp, rfl, rfl⟩⟩
  | ok v =>
      obtain ⟨enabled, parses⟩ := usable v rfl
      have bounce : parsed.isBounce = true := by
        rcases report.severe with same | same <;> simp [Parsed.isBounce, report.genuine, same]
      have named : parsed.correlation.deliveryID ≠ [] := by
        rw [report.names]
        exact report.identified
      have own : ¬(parsed.correlation.tenantID ≠ [] ∧ parsed.correlation.tenantID ≠ tenantID) := by
        rintro ⟨given, foreign⟩
        rcases report.own with same | same <;> contradiction
      simp only [parses, report.genuine, bounce, handleBounce, named, own] at following
      obtain ⟨later, ⟨rfl, found⟩ | ⟨rfl, failure, outage, failed⟩⟩ := ends_query following
      · have loadedRow : ((p.put tenantID { p.tenants tenantID with settings }).tenants tenantID).deliveryGet
            parsed.correlation.deliveryID = .ok row := by
          simp [deliveryGet, DeliveryRepo.get, report.names, stored]
        simp only [loadedRow, report.verified, Bool.not_true, Bool.false_eq_true] at found
        refine ⟨settings, first ++ [(.getDelivery, false)], later, by simp, ?_, still, .inr ⟨v, enabled, found⟩⟩
        simpa [or_imp, forall_and] using early
      · simp only [outage.ne (show ErrKind.notFound ≠ .other by decide)] at failed
        obtain ⟨rfl, rfl, rfl⟩ := failed
        refine ⟨settings, first ++ [(.getDelivery, true)], [], by simp, ?_, still, .inl ⟨by simp, rfl, rfl⟩⟩
        simpa [or_imp, forall_and] using early

/-- No call failed after the event had been recorded. -/
def Orderly (trace : Prog.Trace Call) : Prop :=
  Smooth (trace.dropWhile fun call => call ≠ (.createBounce, false))

instance (trace : Prog.Trace Call) : Decidable (Orderly trace) :=
  inferInstanceAs (Decidable (∀ call ∈ trace.dropWhile _, call.2 = false))

theorem orderly_append (early : ∀ call ∈ first, call.1 ≠ .createBounce) : Orderly (first ++ rest) ↔ Orderly rest := by
  have skipped : ∀ call ∈ first, decide (call ≠ (.createBounce, false)) = true := by
    intro call member
    have other := early call member
    simp only [decide_not, Bool.not_eq_eq_eq_not, Bool.not_true, decide_eq_false_iff_not]
    rintro rfl
    exact other rfl
  rw [Orderly, List.dropWhile_append_of_pos skipped, Orderly]

theorem orderly_nil : Orderly [] := by
  simp [Orderly]

theorem orderly_failed : Orderly [(.createBounce, true)] := by
  decide

theorem orderly_recorded : Orderly ((.createBounce, false) :: rest) ↔ Smooth rest := by
  simp [Orderly]

/-- The report can be read, and its delivery is still sent. -/
structure Awaiting (proc : Processor) (msg : Message) (parsed : Parsed) (tenantID : Text) (d : Delivery)
    (p : Provider) : Prop where
  understood : Understood proc msg parsed (p.tenants tenantID)
  stored : (p.tenants tenantID).deliveries[d.id]? = some d
  sent : d.status = .sent

theorem Awaiting.load {settings : Option TenantSettings} (awaiting : Awaiting proc msg parsed tenantID d p)
    (understood : Understood proc msg parsed { p.tenants tenantID with settings }) :
    Awaiting proc msg parsed tenantID d (p.put tenantID { p.tenants tenantID with settings }) := by
  refine ⟨?_, ?_, awaiting.sent⟩ <;> rw [put_same]
  · exact understood
  · exact awaiting.stored

/-- Everything a bounce message is to achieve, between the state in which it
arrived and the state in which it is acknowledged. -/
structure Handled (parsed : Parsed) (tenantID : Text) (d : Delivery) (before after : Provider) : Prop where
  marked : Marked parsed tenantID d after
  listed : Listed after tenantID d.emailNorm
  platform : SharedTransport before tenantID d → Listed after systemTenantID d.emailNorm
  recorded : ∃ id, (before.tenants tenantID).bounces[id]? = none ∧ Recorded parsed tenantID d id before after
  announced : ∃ id, (before.tenants tenantID).outbox[id]? = none ∧ Announced parsed tenantID d id before after

/-- How an attempt on a sent delivery can end. -/
inductive Attempted (proc : Processor) (msg : Message) (parsed : Parsed) (tenantID : Text) (d : Delivery)
    (a : Attempt) (before after : Provider) (trace : Prog.Trace Call) (error : Option Err) : Prop where
  | idle (failed : error ≠ none) (orderly : Orderly trace)
      (awaiting : Awaiting proc msg parsed tenantID d after)
      (bounces : (after.tenants tenantID).bounces = (before.tenants tenantID).bounces)
      (outbox : (after.tenants tenantID).outbox = (before.tenants tenantID).outbox)
      (shared : SharedTransport after tenantID d ↔ SharedTransport before tenantID d)
  | unmarked (failed : error ≠ none) (disorderly : ¬Orderly trace)
      (awaiting : Awaiting proc msg parsed tenantID d after)
      (recorded : Recorded parsed tenantID d a.bounceID before after)
      (outbox : (after.tenants tenantID).outbox = (before.tenants tenantID).outbox)
  | unannounced (failed : error ≠ none) (disorderly : ¬Orderly trace)
      (understood : Understood proc msg parsed (after.tenants tenantID))
      (marked : Marked parsed tenantID d after)
      (recorded : Recorded parsed tenantID d a.bounceID before after)
      (outbox : (after.tenants tenantID).outbox = (before.tenants tenantID).outbox)
  | complete (succeeded : error = none) (orderly : Orderly trace)
      (handled : Handled parsed tenantID d before after)

theorem attempted (platform : proc.platform = true) (report : Report tenantID parsed d)
    (awaiting : Awaiting proc msg parsed tenantID d p) (named : a.bounceID ≠ [])
    (freshBounce : (p.tenants tenantID).bounces[a.bounceID]? = none)
    (freshEvent : (p.tenants tenantID).outbox[a.outboxID]? = none)
    (ends : (proc.handle tenantID msg a).Ends (fun _ => Outage) p trace reply after) :
    Attempted proc msg parsed tenantID d a p after trace reply.2 := by
  obtain ⟨settings, first, rest, rfl, early, understood, outcome⟩ :=
    handle_ends report awaiting.understood awaiting.stored ends
  have idle {trace : Trace Call} (failed : reply.2 ≠ none) (orderly : Orderly trace) :
      Attempted proc msg parsed tenantID d a p (p.put tenantID { p.tenants tenantID with settings })
        trace reply.2 :=
    .idle failed orderly (awaiting.load understood) (by rw [put_same]) (by rw [put_same])
      (sharedTransport_put (by rfl))
  rcases outcome with ⟨failed, rfl, rfl⟩ | ⟨v, enabled, following⟩
  · exact idle failed ((orderly_append early).mpr orderly_nil)
  have freshAfter :
      ((p.put tenantID { p.tenants tenantID with settings }).tenants tenantID).bounces[a.bounceID]? = none := by
    rw [put_same]
    exact freshBounce
  rcases handleVerified_ends platform report enabled (awaiting.load understood).stored awaiting.sent named
    freshAfter following with ⟨failed, rfl, rfl⟩ | ⟨later, rfl, recorded, kept, followed⟩
  · exact idle failed ((orderly_append early).mpr orderly_failed)
  have trouble : ¬Smooth later → ¬Orderly (first ++ (.createBounce, false) :: later) := fun rough => by
    rw [orderly_append early, orderly_recorded]
    exact rough
  rw [Recorded, put_same] at recorded
  rw [put_same] at kept
  have still := understood_congr kept understood
  rcases followed with ⟨failed, rough, deliveries, outbox⟩ | ⟨failed, rough, marked, outbox⟩ |
    ⟨succeeded, smooth, marked, announced, listed, shared⟩
  · rw [put_same] at deliveries outbox
    have stored : (after.tenants tenantID).deliveries[d.id]? = some d := by
      rw [deliveries]
      exact awaiting.stored
    exact .unmarked failed (trouble rough) ⟨still, stored, awaiting.sent⟩ recorded outbox
  · rw [put_same] at outbox
    exact .unannounced failed (trouble rough) still marked recorded outbox
  · rw [Announced, put_same] at announced
    refine .complete succeeded ?_ ⟨marked, listed, fun through => shared ((sharedTransport_put (by rfl)).mpr through),
      ⟨_, freshBounce, recorded⟩, _, freshEvent, announced⟩
    rw [orderly_append early, orderly_recorded]
    exact smooth

theorem attempted_again (report : Report tenantID parsed d)
    (understood : Understood proc msg parsed (p.tenants tenantID)) (marked : Marked parsed tenantID d p)
    (ends : (proc.handle tenantID msg a).Ends (fun _ => Outage) p trace reply after) :
    Understood proc msg parsed (after.tenants tenantID) ∧ Marked parsed tenantID d after ∧
      (after.tenants tenantID).bounces = (p.tenants tenantID).bounces ∧
      (after.tenants tenantID).outbox = (p.tenants tenantID).outbox := by
  obtain ⟨row, stored, status⟩ := marked
  obtain ⟨settings, first, rest, rfl, early, still, outcome⟩ := handle_ends report understood stored ends
  have unchanged : after = p.put tenantID { p.tenants tenantID with settings } := by
    rcases outcome with ⟨_, _, same⟩ | ⟨v, _, following⟩
    · exact same
    · have gone : row.status = .bounced ∨ row.status = .complained := by
        rw [status, markedStatus]
        split <;> simp
      have unsent : row.status ≠ .sent := by
        rcases gone with same | same <;> rw [same] <;> decide
      simp only [handleVerified, unsent, ne_eq, gone, report.not_soft] at following
      exact following.2.2
  subst unchanged
  rw [Marked, put_same]
  exact ⟨still, ⟨row, stored, status⟩, rfl, rfl⟩

end

end Sendplane.Bounce
