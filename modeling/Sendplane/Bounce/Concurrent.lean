import Sendplane.Bounce.Effects
import Sendplane.Data.Credit

namespace Sendplane.Bounce

open Data Store Memstore TenantStore Processor

structure Handling where
  tenantID : Text
  msg : Message
  a : Attempt

/-- Any number of attempts, for any tenants and messages, interleave call by call. -/
def handlings (proc : Processor) : System (Pool Call Provider Err) (Move Handling Err) :=
  Pool.system fun h => (proc.handle h.tenantID h.msg h.a).discard

def isSent (id : Text) (s : TenantStore) : Bool :=
  match s.deliveries[id]? with
  | some d => d.status = .sent
  | none => false

def announces (id : Text) : Payload → Bool
  | .bounce body => body.deliveryID = id
  | _ => false

def announcements (id : Text) (s : TenantStore) : Nat :=
  (s.outbox.keysWhere fun _ ev => announces id ev.payload).length

/-- The events of the delivery that there are or may still be. -/
def potential (id : Text) (s : TenantStore) : Nat :=
  announcements id s + (isSent id s).toNat

section

variable {id : Text}

theorem mark_cases (id : Text) (now : Time) :
    mark type id now s = (.ok false, s) ∨ ∃ d, s.deliveries[id]? = some d ∧ d.status = .sent ∧
        mark type id now s = (.ok true, { s with
          deliveries := s.deliveries.modify id (markTerminalRow (markedStatus type) now) }) := by
  have terminal (status : DeliveryStatus) : s.markTerminal id status now = (false, s.toDeliveryRepo) ∨
      ∃ d, s.deliveries[id]? = some d ∧ d.status = .sent ∧ s.markTerminal id status now =
        (true, { s.toDeliveryRepo with deliveries := s.deliveries.modify id (markTerminalRow status now) }) := by
    unfold DeliveryRepo.markTerminal
    split
    · exact .inl rfl
    next d stored =>
      split
      · exact .inl rfl
      next sent => exact .inr ⟨d, stored, not_not.mp sent, rfl⟩
  unfold mark markedStatus
  split
  · simp only [deliveryMarkComplained, DeliveryRepo.markComplained]
    rcases terminal .complained with same | ⟨d, stored, sent, same⟩
    · exact .inl (by rw [same])
    · exact .inr ⟨d, stored, sent, by rw [same]⟩
  · simp only [deliveryMarkBounced, DeliveryRepo.markBounced]
    rcases terminal .bounced with same | ⟨d, stored, sent, same⟩
    · exact .inl (by rw [same])
    · exact .inr ⟨d, stored, sent, by rw [same]⟩

theorem isSent_modify (leaves : ∀ d, (change d).status ≠ .sent) (other id : Text) (s : TenantStore) :
    isSent id { s with deliveries := s.deliveries.modify other change } =
      if other = id then false else isSent id s := by
  unfold isSent
  rw [Table.get_modify]
  by_cases same : other = id
  · rw [if_pos same, if_pos same]
    cases s.deliveries[id]? with
    | none => rfl
    | some d => simpa using leaves d
  · rw [if_neg same, if_neg same]

theorem markTerminalRow_leaves (type : BounceType) (now : Time) (d : Delivery) :
    (markTerminalRow (markedStatus type) now d).status ≠ .sent := by
  show markedStatus type ≠ .sent
  unfold markedStatus
  split <;> decide

theorem mark_potential (now : Time) (id : Text) : ∃ changed, (mark type other now s).1 = .ok changed ∧
      potential id (mark type other now s).2 + (changed && decide (other = id)).toNat ≤ potential id s ∧
      (isSent id s = false → isSent id (mark type other now s).2 = false) := by
  rcases mark_cases other now with same | ⟨d, stored, sent, same⟩
  · rw [same]
    exact ⟨false, rfl, by simp, fun unsent => unsent⟩
  · rw [same]
    have moved := isSent_modify (markTerminalRow_leaves type now) other id s
    refine ⟨true, rfl, ?_, fun unsent => ?_⟩
    · have kept : announcements id { s with
          deliveries := s.deliveries.modify other (markTerminalRow (markedStatus type) now) } =
            announcements id s := rfl
      rw [potential, potential, moved, kept]
      by_cases hit : other = id
      · subst hit
        simp [isSent, stored, sent]
      · simp [hit]
    · rw [moved, unsent]
      simp

theorem enqueue_potential (told : ev.payload = .bounce body) (id : Text) :
    potential id (s.outboxEnqueue newID [ev]).2 ≤ potential id s + (decide (body.deliveryID = id)).toNat := by
  let stored := enqueuedEvent s.tenant s.now (newID 0) ev
  have payload : stored.payload = .bounce body := told
  have counted : announcements id (s.outboxEnqueue newID [ev]).2 ≤
      announcements id s + (decide (body.deliveryID = id)).toNat := by
    by_cases about : body.deliveryID = id
    · simp only [about, decide_true]
      exact Table.length_keysWhere_insert_le ..
    · simp only [about, decide_false]
      apply Table.length_keysWhere_insert_of_not
      rw [payload, announces]
      simpa using about
  have sent : isSent id (s.outboxEnqueue newID [ev]).2 = isSent id s := rfl
  rw [potential, potential, sent]
  omega

theorem act_potential {β : Type} {op : TenantStore → Except Err β × TenantStore}
    (free : ∀ s, potential id (op s).2 ≤ potential id s) (p : Provider) :
    potential id (((Provider.forTenant tenantID).act op p).2.tenants t) ≤ potential id (p.tenants t) := by
  rw [forTenant_act]
  split
  next same =>
    rw [same]
    exact free _
  · exact Nat.le_refl _

theorem settings_potential (s : TenantStore) : potential id (s.settingsCreate v).2 ≤ potential id s := by
  obtain ⟨settings, same, _⟩ := settingsCreate_writes s
  rw [same]
  exact Nat.le_refl _

theorem bounce_potential (s : TenantStore) : potential id (s.bounceCreate newID ev).2 ≤ potential id s := by
  rcases bounceCreate_writes s with same | ⟨_, _, _, _, same⟩
  · rw [same]
  · exact Nat.le_refl _

theorem suppress_potential (s : TenantStore) : potential id (s.suppressionUpsert v).2 ≤ potential id s := by
  obtain ⟨suppressions, same⟩ := suppressionUpsert_writes s
  rw [same]
  exact Nat.le_refl _

end

section

variable {proc : Processor} {t id : Text} {settings : TenantSettings} {a : Attempt}

abbrev Affords {α : Type} (t id : Text) (program : Proc α) : Prop :=
  program.Affords (fun p => potential id (p.tenants t)) (fun _ _ => True) 0

abbrev Free (t id : Text) (_ : Call) (effect : Provider → Provider) : Prop :=
  ∀ p, potential id ((effect p).tenants t) ≤ potential id (p.tenants t)

theorem record_free {d : Option Delivery} :
    (proc.record tenantID settings out msg d a).Makes (Free t id) fun _ => True :=
  record_makes fun _ _ => act_potential bounce_potential

theorem suppress_free {reason : SuppressionReason} {now : Time} :
    (proc.suppress tenantID settings d reason out now).Makes (Free t id) fun _ => True :=
  suppress_makes (fun _ => Nat.le_refl _) (fun _ => Nat.le_refl _) (fun _ => act_potential suppress_potential)
    fun _ => act_potential suppress_potential

theorem affords_free {α β : Type} {program : Proc α} {next : α → Proc β}
    (free : program.Makes (Free t id) fun _ => True)
    (continues : ∀ value, (next value).Affords (fun p => potential id (p.tenants t)) (fun _ _ => True) credit) :
    (program >>= next).Affords (fun p => potential id (p.tenants t)) (fun _ _ => True) credit :=
  (free.affords fun _ _ p kept => kept p).bind fun _ value same => same.1 ▸ continues value

theorem record_affords {d : Option Delivery} : Affords t id (proc.record tenantID settings out msg d a) :=
  Prog.Affords.weaken (record_free.affords fun _ _ p kept => kept p) fun _ _ _ => trivial

theorem enqueueEvent_affords (p : Provider) :
    potential id (((Provider.forTenant tenantID).act (outboxEnqueue (fun _ => a.outboxID) [{
      type := type
      payload := .bounce (eventPayload d parsed status suppressed a.now)
      status := .pending
      createdAt := a.now
      nextAttemptAt := a.now }]) p).2.tenants t) ≤
      potential id (p.tenants t) + (decide (t = tenantID ∧ d.id = id)).toNat := by
  rw [forTenant_act]
  split
  next same =>
    subst same
    refine Nat.le_trans (enqueue_potential (by exact rfl) id) ?_
    simp only [true_and]
    exact Nat.le_refl _
  next other => simp

/-- The mark that takes the delivery out of its status pays for the event. -/
theorem transition_affords : Affords t id (proc.transition tenantID settings out d a) := by
  refine Prog.affords_invoke (fun p => ?_) fun failure => trivial
  obtain ⟨changed, reply, paid, _⟩ := mark_potential a.now id
  refine ⟨(changed && decide (t = tenantID ∧ d.id = id)).toNat, ?_, ?_⟩
  · rw [forTenant_act]
    split
    next same =>
      subst same
      simpa using paid
    next other => simp [other]
  · rw [Lens.act, Provider.forTenant_get, reply]
    cases changed with
    | false => trivial
    | true =>
        refine affords_free suppress_free fun answer => ?_
        obtain ⟨out, error⟩ := answer
        cases error with
        | some e => trivial
        | none =>
            refine Prog.affords_invoke (fun p => ⟨0, enqueueEvent_affords p, ?_⟩) fun failure => trivial
            trivial

theorem handleVerified_affords : Affords t id (proc.handleVerified tenantID settings out msg d a) := by
  by_cases sent : d.status = .sent
  · rw [handleVerified_sent sent]
    refine affords_free record_free fun answer => ?_
    unfold afterRecord
    split
    · trivial
    split
    · trivial
    · exact transition_affords
  · rw [handleVerified, if_pos sent]
    split_ifs
    · exact record_affords
    · trivial
    · trivial

theorem handleBounce_affords : Affords t id (proc.handleBounce tenantID settings out msg a) := by
  unfold handleBounce
  dsimp only
  split
  · exact record_affords
  split
  · trivial
  refine Prog.affords_query fun reply => ?_
  cases reply with
  | error e =>
      dsimp only
      split
      · exact record_affords
      · trivial
  | ok d =>
      dsimp only
      split
      · exact record_affords
      · exact handleVerified_affords

theorem handle_affords : Affords t id (proc.handle tenantID msg a) := by
  rw [handle_eq]
  refine affords_free
    (loadSettings_makes (fun _ => Nat.le_refl _) fun v => act_potential settings_potential) fun loaded => ?_
  unfold afterLoad
  split
  · trivial
  split
  · trivial
  split_ifs
  · trivial
  · trivial
  · exact handleBounce_affords

end

def agreement : Discipline Call Provider Err where
  allowed _ _ _ := True
  guarantee _ before after := ∀ t id, isSent id (before.tenants t) = false → isSent id (after.tenants t) = false

theorem Effect.unsent {tenantID t id : Text} (made : Effect tenantID effect)
    (unsent : isSent id (p.tenants t) = false) : isSent id ((effect p).tenants t) = false := by
  refine made.keeps (fun s => isSent id s = false) ?_ ?_ ?_ ?_ (fun _ _ _ kept => kept) unsent
  · intro v s kept
    obtain ⟨settings, same, _⟩ := settingsCreate_writes s
    rw [same]
    exact kept
  · intro newID ev s kept
    rcases bounceCreate_writes s with same | ⟨_, _, _, _, same⟩ <;> rw [same] <;> exact kept
  · intro type other now s kept
    obtain ⟨_, _, _, stays⟩ := mark_potential now id
    exact stays kept
  · intro v s kept
    obtain ⟨suppressions, same⟩ := suppressionUpsert_writes s
    rw [same]
    exact kept

theorem handle_respects (proc : Processor) (h : Handling) :
    (proc.handle h.tenantID h.msg h.a).discard.Respects agreement (fun _ _ => True) p := by
  have makes : Makes h.tenantID (proc.handle h.tenantID h.msg h.a).discard := handle_makes.bind fun _ _ => trivial
  exact makes.respects fun _ _ _ made _ _ _ => made.unsent

variable {proc : Processor} {start pool : Pool Call Provider Err} {moves : List (Move Handling Err)}

/-- A delivery leaves the sent status at most once, and for every time that it
does at most one event is added. -/
theorem handlings_once (idle : start.threads = []) (ran : (handlings proc).run start moves = some pool) (t id : Text) :
    let departures := (handlings proc).departures (fun pool => isSent id (pool.store.tenants t)) start moves
    departures ≤ 1 ∧
      announcements id (pool.store.tenants t) ≤ announcements id (start.store.tenants t) + departures := by
  intro departures
  have spawned (h : Handling) : Affords t id (proc.handle h.tenantID h.msg h.a).discard :=
    handle_affords.bind fun _ _ _ => trivial
  have paid : potential id (pool.store.tenants t) ≤ potential id (start.store.tenants t) :=
    Pool.potential_le_of_reachable spawned idle (System.reachable_of_run ran)
  have disciplined : start.Disciplined agreement := by simp [Pool.Disciplined, idle]
  have spawns : ∀ (h : Handling) (p : Provider), True →
      (proc.handle h.tenantID h.msg h.a).discard.Respects agreement (fun _ _ => True) p :=
    fun h p _ => handle_respects proc h
  have steps (before : Pool Call Provider Err) (move : Move Handling Err) (after : Pool Call Provider Err)
      (kept : before.Disciplined agreement) (stepped : (handlings proc).step before move = some after) :
      agreement.Interferes before.store after.store ∧ after.Disciplined agreement :=
    Pool.disciplined_step spawns trivial kept (fun _ _ => trivial) stepped
  have stable : agreement.Stable fun p => isSent id (p.tenants t) = false :=
    fun _ _ _ guaranteed unsent => guaranteed t id unsent
  have left : (isSent id (start.store.tenants t) = false → isSent id (pool.store.tenants t) = false) ∧
      departures = if isSent id (start.store.tenants t) && !isSent id (pool.store.tenants t) then 1 else 0 :=
    System.departures_of_run disciplined (fun before move after kept stepped => (steps before move after kept stepped).2)
      (fun before move after kept stepped => stable.interferes (steps before move after kept stepped).1) ran
  obtain ⟨stays, counted⟩ := left
  simp only [potential] at paid
  rw [counted]
  cases first : isSent id (start.store.tenants t) with
  | false =>
      simp only [first, stays first] at paid
      simp only [Bool.false_and, Bool.false_eq_true, ↓reduceIte]
      omega
  | true =>
      cases last : isSent id (pool.store.tenants t) with
      | false =>
          simp only [first, Bool.toNat_true] at paid
          simp only [Bool.not_false, Bool.and_self, ↓reduceIte]
          omega
      | true =>
          simp only [first, last] at paid
          simp only [Bool.not_true, Bool.and_false, Bool.false_eq_true, ↓reduceIte]
          omega

end Sendplane.Bounce
