import Sendplane.Memstore.Tenant

namespace Sendplane.Memstore

open Data Store Table

namespace Outbox

def due (now : Time) (e : OutboxEvent) : Bool :=
  e.status = .pending && e.nextAttemptAt ≤ now && (e.leaseOwner = [] || e.leaseUntil ≤ now)

def leaseEvent (lease : Duration) (owner : Text) (now : Time) (e : OutboxEvent) : OutboxEvent :=
  { e with leaseOwner := owner, leaseUntil := truncateTime (now + lease) }

def claimedIDs (limit : Int) (now : Time) (outbox : Table Text OutboxEvent) : List Text :=
  takeLimit limit (outbox.keysWhere fun _ e => due now e)

def claimPending (limit : Int) (lease : Duration) (owner : Text) (now : Time) (outbox : Table Text OutboxEvent) :
    List OutboxEvent × Table Text OutboxEvent :=
  let now := truncateTime now
  let after := outbox.updateAll (claimedIDs limit now outbox) (leaseEvent lease owner now)
  ((claimedIDs limit now outbox).filterMap fun id => after[id]?, after)

def missing (id : Text) : Err :=
  .wrap .notFound (text "outbox " ++ id)

def change (id : Text) (f : OutboxEvent → OutboxEvent) (outbox : Table Text OutboxEvent) :
    Except Err Unit × Table Text OutboxEvent :=
  match outbox[id]? with
  | none => (.error (missing id), outbox)
  | some _ => (.ok (), outbox.modify id f)

def resetEvent (now : Time) (e : OutboxEvent) : OutboxEvent :=
  { e with
    status := .pending, attempts := 0, lastError := [], nextAttemptAt := truncateTime now
    leaseOwner := [], leaseUntil := 0, deliveredAt := 0 }

def reset (id : Text) (now : Time) : Table Text OutboxEvent → Except Err Unit × Table Text OutboxEvent :=
  change id (resetEvent now)

def deliveredEvent (time : Time) (e : OutboxEvent) : OutboxEvent :=
  { e with status := .delivered, deliveredAt := truncateTime time, leaseOwner := [], leaseUntil := 0 }

def markDelivered (id : Text) (time : Time) : Table Text OutboxEvent → Except Err Unit × Table Text OutboxEvent :=
  change id (deliveredEvent time)

/-- The zero time makes the event a dead letter. -/
def failedEvent (nextAttempt : Time) (errMsg : Text) (e : OutboxEvent) : OutboxEvent :=
  let e := { e with attempts := e.attempts + 1, lastError := errMsg, leaseOwner := [], leaseUntil := 0 }
  if nextAttempt = 0 then { e with status := .failed }
  else { e with status := .pending, nextAttemptAt := truncateTime nextAttempt }

def markFailed (id : Text) (nextAttempt : Time) (errMsg : Text) :
    Table Text OutboxEvent → Except Err Unit × Table Text OutboxEvent :=
  change id (failedEvent nextAttempt errMsg)

theorem change_changes (outbox : Table Text OutboxEvent) (id : Text) (f : OutboxEvent → OutboxEvent) :
    Changes (fun changed old new => changed = id ∧ new = f old) outbox (change id f outbox).2 := by
  unfold change
  split
  · exact .refl _
  · exact changes_modify

theorem claimedIDs_nodup : (claimedIDs limit now outbox).Nodup :=
  takeLimit_nodup (keysWhere_nodup _ _)

theorem claimPending_changes : Changes (fun _ old new => due (truncateTime now) old = true ∧
        new = leaseEvent lease owner (truncateTime now) old) outbox (claimPending limit lease owner now outbox).2 := by
  apply (changes_updateAll claimedIDs_nodup).imp
  intro id old new stored changed
  obtain ⟨row, found, eligible⟩ := mem_keysWhere.mp (mem_of_mem_takeLimit changed.1)
  obtain rfl : row = old := Option.some.inj (found.symm.trans stored)
  exact ⟨eligible, changed.2⟩

theorem mem_claimPending (taken : e ∈ (claimPending limit lease owner now outbox).1) :
    e.leaseOwner = owner ∧ ∃ id : Text, (claimPending limit lease owner now outbox).2[id]? = some e := by
  obtain ⟨id, listed, stored⟩ := List.mem_filterMap.mp taken
  refine ⟨?_, id, stored⟩
  rw [get_updateAll claimedIDs_nodup, if_pos listed] at stored
  obtain ⟨old, -, rfl⟩ := Option.map_eq_some_iff.mp stored
  rfl

end Outbox

end Sendplane.Memstore
