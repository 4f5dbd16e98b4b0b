import Sendplane.Bounce.Handling

namespace Sendplane.Bounce

open Data Store Memstore List

abbrev Log := List (Attempt × Prog.Trace Call)

/-- The message is handed over again until an attempt returns no error. -/
inductive Redelivered (proc : Processor) (tenantID : Text) (msg : Message) :
    Provider → Log → Provider → Prop where
  | handled {p after : Provider} {a : Attempt} {trace : Prog.Trace Call} {out : Outcome}
      (ends : (proc.handle tenantID msg a).Ends (fun _ => Outage) p trace (out, none) after) :
      Redelivered proc tenantID msg p [(a, trace)] after
  | again {p middle after : Provider} {a : Attempt} {trace : Prog.Trace Call} {out : Outcome} {e : Err}
      {log : Log} (ends : (proc.handle tenantID msg a).Ends (fun _ => Outage) p trace (out, some e) middle)
      (later : Redelivered proc tenantID msg middle log after) :
      Redelivered proc tenantID msg p ((a, trace) :: log) after

/-- The identifiers the attempts generate are new. -/
structure FreshAttempts (tenantID : Text) (p : Provider) (log : Log) : Prop where
  distinct : (log.map fun entry => entry.1.bounceID).Nodup
  named : ∀ entry ∈ log, entry.1.bounceID ≠ []
  bounces : ∀ entry ∈ log, (p.tenants tenantID).bounces[entry.1.bounceID]? = none
  outbox : ∀ entry ∈ log, (p.tenants tenantID).outbox[entry.1.outboxID]? = none

section

variable {proc : Processor} {tenantID : Text} {msg : Message} {parsed : Parsed} {d : Delivery}
  {p after : Provider} {log : Log}

theorem size_of_recorded {id : Text} (fresh : (p.tenants tenantID).bounces[id]? = none)
    (recorded : Recorded parsed tenantID d id p after) :
    (after.tenants tenantID).bounces.size = (p.tenants tenantID).bounces.size + 1 := by
  obtain ⟨ev, inserted, -⟩ := recorded
  rw [inserted, Table.size_insert fresh]

theorem size_of_announced {id : Text} (fresh : (p.tenants tenantID).outbox[id]? = none)
    (announced : Announced parsed tenantID d id p after) :
    (after.tenants tenantID).outbox.size = (p.tenants tenantID).outbox.size + 1 := by
  obtain ⟨ev, body, inserted, -⟩ := announced
  rw [inserted, Table.size_insert fresh]

theorem settled_kept (report : Report tenantID parsed d) (redelivered : Redelivered proc tenantID msg p log after)
    (understood : Understood proc msg parsed (p.tenants tenantID)) (marked : Marked parsed tenantID d p) :
    (after.tenants tenantID).bounces = (p.tenants tenantID).bounces ∧
      (after.tenants tenantID).outbox = (p.tenants tenantID).outbox := by
  induction redelivered with
  | handled ends =>
      obtain ⟨_, _, bounces, outbox⟩ := attempted_again report understood marked ends
      exact ⟨bounces, outbox⟩
  | again ends _ ih =>
      obtain ⟨still, kept, bounces, outbox⟩ := attempted_again report understood marked ends
      obtain ⟨laterBounces, laterOutbox⟩ := ih still kept
      exact ⟨laterBounces.trans bounces, laterOutbox.trans outbox⟩

variable {a : Attempt}

theorem FreshAttempts.tail (fresh : FreshAttempts tenantID p ((a, trace) :: log)) (bounces : ∀ id, a.bounceID ≠ id →
      (middle.tenants tenantID).bounces[id]? = (p.tenants tenantID).bounces[id]?)
    (outbox : (middle.tenants tenantID).outbox = (p.tenants tenantID).outbox) : FreshAttempts tenantID middle log := by
  have distinct := fresh.distinct
  rw [map_cons, nodup_cons] at distinct
  refine ⟨distinct.2, fun entry member => fresh.named entry (by simp [member]), fun entry member => ?_,
    fun entry member => ?_⟩
  · have other : a.bounceID ≠ entry.1.bounceID := fun same =>
      distinct.1 (mem_map.mpr ⟨entry, member, same.symm⟩)
    rw [bounces _ other]
    exact fresh.bounces entry (by simp [member])
  · rw [outbox]
    exact fresh.outbox entry (by simp [member])

theorem Recorded.frame {id other : Text} (recorded : Recorded parsed tenantID d id p after) (distinct : id ≠ other) :
    (after.tenants tenantID).bounces[other]? = (p.tenants tenantID).bounces[other]? := by
  obtain ⟨ev, inserted, -⟩ := recorded
  rw [inserted, Table.get_insert_ne distinct]

theorem FreshAttempts.attempted (fresh : FreshAttempts tenantID p ((a, trace) :: log))
    (platform : proc.platform = true) (report : Report tenantID parsed d)
    (awaiting : Awaiting proc msg parsed tenantID d p)
    (ends : (proc.handle tenantID msg a).Ends (fun _ => Outage) p trace reply after) :
    Attempted proc msg parsed tenantID d a p after trace reply.2 :=
  Bounce.attempted platform report awaiting (fresh.named _ mem_cons_self) (fresh.bounces _ mem_cons_self)
    (fresh.outbox _ mem_cons_self) ends

theorem recorded_grows (platform : proc.platform = true) (report : Report tenantID parsed d)
    (redelivered : Redelivered proc tenantID msg p log after)
    (awaiting : Awaiting proc msg parsed tenantID d p) (fresh : FreshAttempts tenantID p log) :
    (p.tenants tenantID).bounces.size + 1 ≤ (after.tenants tenantID).bounces.size := by
  induction redelivered with
  | handled ends =>
      cases fresh.attempted platform report awaiting ends with
      | idle failed | unmarked failed | unannounced failed => exact absurd rfl failed
      | complete _ _ handled =>
          obtain ⟨id, absent, recorded⟩ := handled.recorded
          rw [size_of_recorded absent recorded]
  | again ends later ih =>
      cases fresh.attempted platform report awaiting ends with
      | idle _ _ still bounces outbox _ =>
          rw [← bounces]
          exact ih still (fresh.tail (fun id _ => by rw [bounces]) outbox)
      | unmarked _ _ still recorded outbox =>
          have grown := size_of_recorded (fresh.bounces _ mem_cons_self) recorded
          have further := ih still (fresh.tail (fun id other => recorded.frame other) outbox)
          omega
      | unannounced _ _ understood marked recorded _ =>
          have grown := size_of_recorded (fresh.bounces _ mem_cons_self) recorded
          rw [(settled_kept report later understood marked).1]
          omega
      | complete succeeded => cases succeeded

theorem handled_congr (bounces : (middle.tenants tenantID).bounces = (p.tenants tenantID).bounces)
    (outbox : (middle.tenants tenantID).outbox = (p.tenants tenantID).outbox)
    (shared : SharedTransport middle tenantID d ↔ SharedTransport p tenantID d) :
    Handled parsed tenantID d middle after ↔ Handled parsed tenantID d p after := by
  constructor
  · rintro ⟨marked, listed, platform, recorded, announced⟩
    simp only [Recorded, Announced, bounces, outbox, shared] at platform recorded announced
    exact ⟨marked, listed, platform, recorded, announced⟩
  · rintro ⟨marked, listed, platform, recorded, announced⟩
    simp only [Recorded, Announced, ← bounces, ← outbox, ← shared] at platform recorded announced
    exact ⟨marked, listed, platform, recorded, announced⟩

/-- Redelivering a message until it is handled does everything the message asks
for exactly when no attempt loses a call after it has recorded the event. -/
theorem handled_iff_orderly (platform : proc.platform = true) (report : Report tenantID parsed d)
    (awaiting : Awaiting proc msg parsed tenantID d p) (fresh : FreshAttempts tenantID p log)
    (redelivered : Redelivered proc tenantID msg p log after) :
    Handled parsed tenantID d p after ↔ ∀ entry ∈ log, Orderly entry.2 := by
  induction redelivered with
  | handled ends =>
      cases fresh.attempted platform report awaiting ends with
      | idle failed | unmarked failed | unannounced failed => exact absurd rfl failed
      | complete _ orderly handled => simpa [handled] using orderly
  | again ends later ih =>
      cases fresh.attempted platform report awaiting ends with
      | idle _ orderly still bounces outbox shared =>
          have rest := ih still (fresh.tail (fun id _ => by rw [bounces]) outbox)
          rw [← handled_congr bounces outbox shared, rest]
          simp [orderly]
      | unmarked _ disorderly still recorded outbox =>
          have grown := size_of_recorded (fresh.bounces _ mem_cons_self) recorded
          have further := recorded_grows platform report later still
            (fresh.tail (fun id other => recorded.frame other) outbox)
          refine iff_of_false (fun handled => ?_) (fun orderly => disorderly (orderly _ mem_cons_self))
          obtain ⟨id, absent, once⟩ := handled.recorded
          have exactly := size_of_recorded absent once
          omega
      | unannounced _ disorderly understood marked _ outbox =>
          refine iff_of_false (fun handled => ?_) (fun orderly => disorderly (orderly _ mem_cons_self))
          obtain ⟨id, absent, announced⟩ := handled.announced
          have exactly := size_of_announced absent announced
          rw [(settled_kept report later understood marked).2, outbox] at exactly
          omega
      | complete succeeded => cases succeeded

end

section

variable {after : Provider}

theorem ends_of_outages (proc : Processor) (tenantID : Text) (msg : Message) (a : Attempt) (p : Provider)
    (outages : ∀ n, ∀ e ∈ plan n, Outage e) :
    (proc.handle tenantID msg a).Ends (fun _ => Outage) p ((proc.handle tenantID msg a).trace plan p)
      ((proc.handle tenantID msg a).run plan p).1 ((proc.handle tenantID msg a).run plan p).2 :=
  Prog.ends_run (fun n e planned _ => outages n e planned) _ p

theorem redelivered_handled (outages : ∀ n, ∀ e ∈ plan n, Outage e)
    (succeeded : ((proc.handle tenantID msg a).run plan p).1.2 = none) :
    Redelivered proc tenantID msg p [(a, (proc.handle tenantID msg a).trace plan p)]
      ((proc.handle tenantID msg a).run plan p).2 := by
  have ends := ends_of_outages proc tenantID msg a p outages
  rw [← Prod.mk.eta (p := (Prog.run _ plan p).1), succeeded] at ends
  exact .handled ends

theorem redelivered_again (outages : ∀ n, ∀ e ∈ plan n, Outage e)
    (failed : ((proc.handle tenantID msg a).run plan p).1.2 = some e)
    (later : Redelivered proc tenantID msg ((proc.handle tenantID msg a).run plan p).2 log after) :
    Redelivered proc tenantID msg p ((a, (proc.handle tenantID msg a).trace plan p) :: log) after := by
  have ends := ends_of_outages proc tenantID msg a p outages
  rw [← Prod.mk.eta (p := (Prog.run _ plan p).1), failed] at ends
  exact .again ends later

end

def outageAt (position n : Nat) : Option Err :=
  if n = position then some ⟨.other, text "connection reset"⟩ else none

theorem outageAt_outages : ∀ n, ∀ e ∈ outageAt position n, Outage e := by
  intro n e member
  rw [outageAt] at member
  split at member
  · cases member
    rfl
  · cases member

def newsletter : Delivery where
  id := text "d1"
  campaignID := text "c1"
  senderID := text "s1"
  email := text "ada@example.com"
  emailNorm := text "ada@example.com"
  lane := .bulk
  status := .sent

def hardBounce : Parsed where
  type := .hard
  status := text "5.1.1"
  correlation := { deliveryID := text "d1", source := .verp, verified := true }

def sentStore : Provider :=
  Provider.put (text "t1") {
    tenant := text "t1"
    deliveries := (∅ : Table Text Delivery).insert (text "d1") newsletter
    settings := some (defaultTenantSettings (text "t1") { kid := text "k1" } 0)
    senders := (∅ : Table Text Sender).insert (text "s1")
      { id := text "s1", transportID := text "sys:shared-a" } }
    { tenants _ := {} }

def bounceProcessor : Processor where
  parseWithKeys _ _ := .ok hardBounce
  normalizeEmail address := .ok address
  marshal raw := raw

theorem hardBounce_reports : Report (text "t1") hardBounce newsletter where
  severe := .inl rfl
  genuine := rfl
  names := rfl
  identified := by decide
  own := .inl rfl
  verified := rfl
  mailing := by decide
  addressed := by decide

theorem sentStore_awaiting : Awaiting bounceProcessor msg hardBounce (text "t1") newsletter sentStore where
  understood := ⟨rfl, rfl⟩
  stored := by decide
  sent := rfl

def firstAttempt : Attempt where
  now := 1000000
  bounceID := text "b1"
  outboxID := text "e1"

def secondAttempt : Attempt where
  now := 2000000
  bounceID := text "b2"
  outboxID := text "e2"

theorem attempts_fresh : FreshAttempts (text "t1") sentStore [(firstAttempt, first), (secondAttempt, second)] where
  distinct := show [firstAttempt.bounceID, secondAttempt.bounceID].Nodup by decide
  named := by
    have named : firstAttempt.bounceID ≠ [] ∧ secondAttempt.bounceID ≠ [] := by decide
    simpa using named
  bounces := by
    have fresh : (sentStore.tenants (text "t1")).bounces[firstAttempt.bounceID]? = none ∧
        (sentStore.tenants (text "t1")).bounces[secondAttempt.bounceID]? = none := by decide
    simpa using fresh
  outbox := by
    have fresh : (sentStore.tenants (text "t1")).outbox[firstAttempt.outboxID]? = none ∧
        (sentStore.tenants (text "t1")).outbox[secondAttempt.outboxID]? = none := by decide
    simpa using fresh

def interrupted (position : Nat) : (Outcome × Option Err) × Provider :=
  (bounceProcessor.handle (text "t1") {} firstAttempt).run (outageAt position) sentStore

def resumed (position : Nat) : (Outcome × Option Err) × Provider :=
  (bounceProcessor.handle (text "t1") {} secondAttempt).exec (interrupted position).2

def interruptedLog (position : Nat) : Log :=
  [(firstAttempt, (bounceProcessor.handle (text "t1") {} firstAttempt).trace (outageAt position) sentStore),
    (secondAttempt, (bounceProcessor.handle (text "t1") {} secondAttempt).trace (fun _ => none)
      (interrupted position).2)]

theorem interrupted_redelivered (failed : (interrupted position).1.2 = some e)
    (succeeded : (resumed position).1.2 = none) :
    Redelivered bounceProcessor (text "t1") {} sentStore (interruptedLog position) (resumed position).2 :=
  redelivered_again outageAt_outages failed (redelivered_handled (by simp) succeeded)

theorem handled_after_failed_load :
    Orderly (bounceProcessor.handle (text "t1") {} firstAttempt |>.trace (outageAt 1) sentStore) ∧
      Handled hardBounce (text "t1") newsletter sentStore (resumed 1).2 := by
  have redelivered : Redelivered bounceProcessor (text "t1") {} sentStore (interruptedLog 1) (resumed 1).2 :=
    interrupted_redelivered (e := within (text "bounce: load delivery d1") ⟨.other, text "connection reset"⟩)
      (by decide) (by decide)
  exact ⟨by decide, (handled_iff_orderly rfl hardBounce_reports sentStore_awaiting attempts_fresh
    redelivered).mpr (by decide)⟩

/-- The event could not be enqueued.  The second attempt finds the delivery
bounced and returns no error, and no event is ever enqueued. -/
theorem failed_enqueue_is_never_announced :
    Report (text "t1") hardBounce newsletter ∧ Awaiting bounceProcessor {} hardBounce (text "t1") newsletter sentStore ∧
      FreshAttempts (text "t1") sentStore (interruptedLog 8) ∧
      Redelivered bounceProcessor (text "t1") {} sentStore (interruptedLog 8) (resumed 8).2 ∧
      (resumed 8).1.1.skipped = some .alreadyTerminal ∧ ((resumed 8).2.tenants (text "t1")).outbox.size = 0 ∧
      ¬Handled hardBounce (text "t1") newsletter sentStore (resumed 8).2 := by
  have redelivered : Redelivered bounceProcessor (text "t1") {} sentStore (interruptedLog 8) (resumed 8).2 :=
    interrupted_redelivered (e := within (text "bounce: enqueue delivery.bounced") ⟨.other, text "connection reset"⟩)
      (by decide) (by decide)
  have silent : ((resumed 8).2.tenants (text "t1")).outbox.size = 0 := by decide
  refine ⟨hardBounce_reports, sentStore_awaiting, attempts_fresh, redelivered, by decide, silent, fun handled => ?_⟩
  obtain ⟨id, absent, announced⟩ := handled.announced
  have grown := size_of_announced absent announced
  omega

end Sendplane.Bounce
