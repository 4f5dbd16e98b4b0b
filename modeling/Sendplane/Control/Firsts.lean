import Sendplane.Api.Tracking
import Sendplane.Memstore.Upkeep

namespace Sendplane.Control.Firsts

open Data Store Memstore Memstore.TenantStore Api DeliveryRepo

/-- `unsubscribeClicked` is the unconfirmed GET. -/
def column : TrackingKind → Option (Field Delivery Time)
  | .opened => some firstOpenedAt
  | .click => some firstClickedAt
  | .unsubscribed => some unsubscribedAt
  | .unsubscribeClicked => none

def deriveFirsts (seen : List (TrackingKind × Text)) : List TrackingEvent → TenantStore → TenantStore
  | [], s => s
  | ev :: events, s =>
      if ev.suspectedBot = true ∨ ev.deliveryID = [] then deriveFirsts seen events s
      else
        match column ev.kind with
        | none => deriveFirsts seen events s
        | some set =>
            if (ev.kind, ev.deliveryID) ∈ seen then deriveFirsts seen events s
            else deriveFirsts ((ev.kind, ev.deliveryID) :: seen) events (s.deliverySetFirst set ev.deliveryID ev.createdAt).2

def flushTenant (newID : Nat → Text) (batch : List TrackingEvent) (p : Provider) (tenantID : Text) : Provider :=
  let events := batch.filter fun ev => ev.tenantID = tenantID
  p.put tenantID (deriveFirsts [] events ((p.tenants tenantID).trackingInsertEvents newID events).2)

structure State extends ServerState where
  recorded : List TrackingEvent
  flushed : List TrackingEvent := []

/-- A flush is one step: what is recorded meanwhile goes into the next batch. -/
inductive Step where
  | record (ev : TrackingEvent) (newID : Text) (clock : Time)
  /-- The map of tenants has no order. -/
  | flush (newID : Nat → Text) (order : List Text → List Text) (permutes : ∀ tenants, (order tenants).Perm tenants)

/-- Only runs in which nothing is dropped. -/
def flusher : System State Step where
  step
    | s, .record ev newID clock =>
        let tracking := s.tracking.record newID clock ev
        if tracking.dropped = s.tracking.dropped then
          some { s with tracking, recorded := s.recorded ++ tracking.buf.getLast?.toList }
        else none
    | s, .flush newID order _ =>
        some { s with
          provider := (order (s.tracking.buf.map TrackingEvent.tenantID).dedup).foldl
            (flushTenant newID s.tracking.buf) s.provider
          tracking := { s.tracking with buf := [] }
          flushed := s.flushed ++ s.tracking.buf }

def counts (id : Text) (kind : TrackingKind) (ev : TrackingEvent) : Bool :=
  ev.kind = kind ∧ ev.deliveryID = id ∧ id ≠ [] ∧ ev.suspectedBot = false

/-- The time of the first event that counts; zero if there is none. -/
def firstAt (events : List TrackingEvent) (id : Text) (kind : TrackingKind) : Time :=
  (events.find? (counts id kind)).elim 0 fun ev => truncateTime ev.createdAt

/-- Each column that was empty takes the first time of its kind. -/
def Settles (events : List TrackingEvent) (id : Text) (d after : Delivery) : Prop :=
  ∀ kind field, column kind = some field →
    field.get after = if field.get d = 0 then firstAt events id kind else field.get d

def Becomes (events : List TrackingEvent) (id : Text) (d : Delivery) (s : TenantStore) : Prop :=
  ∃ after, s.deliveries[id]? = some after ∧ Settles events id d after

def Whole (d : Delivery) : Prop :=
  ∀ kind field, column kind = some field → truncateTime (field.get d) = field.get d

/-- The zero time is what an unset column holds. -/
def Timed (events : List TrackingEvent) : Prop :=
  ∀ ev ∈ events, truncateTime ev.createdAt ≠ 0

variable {first : List TrackingEvent} {id : Text} {kind : TrackingKind} {d : Delivery} {ev : TrackingEvent}
  {s : TenantStore}

theorem firstAt_append (timed : Timed first) : firstAt (first ++ rest) id kind =
    if firstAt first id kind = 0 then firstAt rest id kind else firstAt first id kind := by
  rw [firstAt, List.find?_append]
  cases found : first.find? (counts id kind) with
  | none => simp [firstAt, found]
  | some ev => simp [firstAt, found, timed ev (List.mem_of_find?_eq_some found)]

theorem Settles.trans (timed : Timed first) (one : Settles first id d middle) (becomes : Becomes rest id middle s) :
    Becomes (first ++ rest) id d s := by
  obtain ⟨after, found, two⟩ := becomes
  refine ⟨after, found, fun kind field named => ?_⟩
  rw [two kind field named, one kind field named, firstAt_append timed]
  split <;> simp_all

theorem Settles.whole (settled : Settles events id d after) (whole : Whole d) : Whole after := by
  intro kind field named
  rw [settled kind field named]
  split
  · cases found : events.find? (counts id kind) <;> simp [firstAt, found]
  · exact whole kind field named

theorem settles_same (idle : ∀ kind field, column kind = some field → field.get d = 0 → firstAt events id kind = 0) :
    Settles events id d d := by
  intro kind field named
  split
  next zero => rw [zero, idle kind field named zero]
  next => rfl

theorem get_setFirstRow {set : Field Delivery Time} (named : column kind = some field)
    (others : column other = some set) :
    field.get (setFirstRow set time d) = truncateTime (if other = kind then time else field.get d) := by
  cases kind <;> cases other <;> cases named <;> cases others <;> rfl

theorem setFirst_becomes (named : column ev.kind = some field) (human : ¬(ev.suspectedBot = true ∨ ev.deliveryID = []))
    (whole : Whole d) (stored : s.deliveries[id]? = some d) :
    Becomes [ev] id d (s.deliverySetFirst field ev.deliveryID ev.createdAt).2 := by
  by_cases written : ev.deliveryID = id ∧ field.get d = 0
  · obtain ⟨rfl, unset⟩ := written
    refine ⟨setFirstRow field ev.createdAt d, ?_, ?_⟩
    · simp [deliverySetFirst, setFirst, stored, unset]
    · intro kind other listed
      rw [get_setFirstRow listed named]
      by_cases same : ev.kind = kind
      · subst same
        cases named.symm.trans listed
        simp_all [firstAt, counts]
      · simp [firstAt, counts, same, whole kind other listed]
  · refine ⟨d, ?_, settles_same fun kind other listed zero => ?_⟩
    · simp only [deliverySetFirst, setFirst]
      grind [Table.get_modify]
    · have idle : counts id kind ev = false := by grind [counts]
      simp [firstAt, idle]

/-- What is in `seen` is set already, so the events left out change nothing. -/
theorem deriveFirsts_becomes (timed : Timed events)
    (known : ∀ kind field, (kind, id) ∈ seen → column kind = some field → field.get d ≠ 0) (whole : Whole d)
    (stored : s.deliveries[id]? = some d) : Becomes events id d (deriveFirsts seen events s) := by
  induction events generalizing seen s d with
  | nil => exact ⟨d, stored, settles_same fun _ _ _ _ => rfl⟩
  | cons ev events ih =>
      obtain ⟨time, later⟩ := List.forall_mem_cons.mp timed
      have now : Timed [ev] := by simpa [Timed] using time
      have skip (idle : ∀ kind field, column kind = some field → field.get d = 0 → counts id kind ev = false) :
          Becomes (ev :: events) id d (deriveFirsts seen events s) := by
        refine Settles.trans now (settles_same fun kind field named zero => ?_) (ih later known whole stored)
        simp [firstAt, idle kind field named zero]
      rw [deriveFirsts]
      split
      next idle => exact skip fun _ _ _ _ => by grind [counts]
      next human =>
        split
        next none => exact skip fun _ _ named _ => by grind [counts]
        next set named =>
          split
          next there => exact skip fun kind field named zero => by grind [counts]
          next =>
            obtain ⟨middle, written, settled⟩ := setFirst_becomes named human whole stored
            have decided : ∀ kind field, (kind, id) ∈ (ev.kind, ev.deliveryID) :: seen → column kind = some field →
                field.get middle ≠ 0 := by
              intro kind field listed named
              rw [settled kind field named]
              rcases List.mem_cons.mp listed with same | old
              · cases same
                split <;> simp_all [firstAt, counts]
              · have set := known kind field old named
                rwa [if_neg set]
            exact settled.trans now (ih later decided (settled.whole whole) written)

theorem foldl_flushTenant {tenants : List Text} (distinct : tenants.Nodup) (p : Provider) :
    (tenants.foldl (flushTenant newID batch) p).tenants tenantID =
      if tenantID ∈ tenants then (flushTenant newID batch p tenantID).tenants tenantID else p.tenants tenantID := by
  induction tenants generalizing p with
  | nil => rfl
  | cons other tenants ih =>
      rw [List.nodup_cons] at distinct
      rw [List.foldl_cons, ih distinct.2]
      by_cases same : tenantID = other
      · subst same
        simp [distinct.1]
      · simp [flushTenant, Provider.put_get, same]

/-- The invariant: the row is what the flushed events make of it. -/
structure Derived (tenantID id : Text) (d : Delivery) (s : State) : Prop where
  recorded : s.recorded = s.flushed ++ s.tracking.buf
  timed : Timed s.recorded
  becomes : Becomes (s.flushed.filter fun ev => ev.tenantID = tenantID) id d (s.provider.tenants tenantID)

/-- No recorded event has a time that is stored as zero. -/
def Dated (s : State) : Step → Prop
  | .record ev newID clock => Timed (s.tracking.record newID clock ev).buf
  | .flush .. => True

instance (s : State) (label : Step) : Decidable (Dated s label) := by
  cases label with
  | record => exact inferInstanceAs (Decidable (∀ ev ∈ _, _))
  | flush => exact .isTrue trivial

theorem derived_step {s next : State} (whole : Whole d) (derived : Derived tenantID id d s) (dated : Dated s label)
    (stepped : flusher.step s label = some next) : Derived tenantID id d next := by
  obtain ⟨recorded, timed, after, found, settled⟩ := derived
  cases label with
  | record ev newID clock =>
      simp only [flusher, Option.ite_none_right_eq_some, Option.some.injEq] at stepped
      obtain ⟨kept, rfl⟩ := stepped
      have appended : ∃ entry, (s.tracking.record newID clock ev).buf = s.tracking.buf ++ [entry] := by
        rw [TrackingBuffer.record] at kept ⊢
        split at kept
        · simp at kept
        · simp_all
      obtain ⟨entry, appended⟩ := appended
      refine ⟨by simp [appended, recorded], ?_, after, found, settled⟩
      intro ev listed
      rcases List.mem_append.mp listed with old | new
      · exact timed ev old
      · exact dated ev (by simp_all)
  | flush newID order permutes =>
      cases stepped
      obtain ⟨earlier, current⟩ := List.forall_mem_append.mp (recorded ▸ timed)
      refine ⟨by simp [recorded], timed, ?_⟩
      have perm := permutes (s.tracking.buf.map TrackingEvent.tenantID).dedup
      simp only [foldl_flushTenant (perm.nodup_iff.mpr (List.nodup_dedup _)), List.filter_append]
      split
      · rw [flushTenant, Provider.put_same]
        refine settled.trans (fun ev listed => earlier ev (List.mem_of_mem_filter listed)) ?_
        exact deriveFirsts_becomes (fun ev listed => current ev (List.mem_of_mem_filter listed)) nofun
          (settled.whole whole) found
      next absent =>
        have none : s.tracking.buf.filter (fun ev => ev.tenantID = tenantID) = [] := by
          simpa [perm.mem_iff] using absent
        rw [none, List.append_nil]
        exact ⟨after, found, settled⟩

/-- However the calls are split into flushes, what is flushed is recorded first,
a column that is not set gets the time of the first event flushed that counts, and
one that is set stays as it is. -/
theorem firsts_decided {start : ServerState} {s : State} (timed : Timed start.tracking.buf)
    (reached : flusher.Reaches Dated { start with recorded := start.tracking.buf } s) {tenantID id : Text}
    (stored : (start.provider.tenants tenantID).deliveries[id]? = some d) (whole : Whole d) :
    s.recorded = s.flushed ++ s.tracking.buf ∧
      Becomes (s.flushed.filter fun ev => ev.tenantID = tenantID) id d (s.provider.tenants tenantID) := by
  have derived : Derived tenantID id d s := by
    refine System.Reaches.invariant ?_ (fun _ _ _ derived => derived_step whole derived) reached
    exact ⟨rfl, timed, d, stored, settles_same fun _ _ _ _ => rfl⟩
  exact ⟨derived.recorded, derived.becomes⟩

/-- A delivery that is opened twice. -/
def shop : ServerState where
  provider.tenants _ := { deliveries := (∅ : Table Text Delivery).insert (text "d1") { id := text "d1" } }

def opens (times : List Time) : List Step :=
  times.flatMap fun time =>
    [.record { tenantID := text "t", deliveryID := text "d1", kind := .opened, createdAt := time } (text "e") 0,
      .flush (fun _ => text "e") (fun tenants => tenants) fun _ => .refl _]

def opened (times : List Time) : Option State :=
  flusher.run { shop with recorded := [] } (opens times)

theorem early_open_forgotten :
    (opened [5, 7000000]).map (fun s => (s.tracking.buf.length, firstAt s.recorded (text "d1") .opened,
      (s.provider.tenants (text "t")).deliveries[text "d1"]?.map Delivery.firstOpenedAt)) =
        some (0, 0, some 7000000) := by
  decide +kernel

theorem first_open_decides : ∃ s after, opened [7000000, 9000000] = some s ∧
    (s.provider.tenants (text "t")).deliveries[text "d1"]? = some after ∧ after.firstOpenedAt = 7000000 := by
  have first : (opened [7000000, 9000000]).map (fun s =>
      firstAt (s.flushed.filter fun ev => ev.tenantID = text "t") (text "d1") .opened) = some 7000000 := by
    decide +kernel
  obtain ⟨s, ran, first⟩ := Option.map_eq_some_iff.mp first
  have dated : flusher.Guarded Dated { shop with recorded := [] } (opens [7000000, 9000000]) := by
    decide +kernel
  have stored : (shop.provider.tenants (text "t")).deliveries[text "d1"]? = some { id := text "d1" } := by
    simp [shop]
  have whole : Whole { id := text "d1" } := by
    intro kind field named
    cases kind <;> cases named <;> rfl
  obtain ⟨-, after, found, settled⟩ :=
    firsts_decided (by simp [shop, Timed]) (System.reaches_of_run dated ran) stored whole
  exact ⟨s, after, ran, found, (settled .opened firstOpenedAt rfl).trans first⟩

end Sendplane.Control.Firsts
