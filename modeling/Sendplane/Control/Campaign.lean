import Mathlib.Algebra.GroupWithZero.Nat
import Sendplane.Data.Prog
import Sendplane.Memstore.Tenant

namespace Sendplane.Control

open Data Store Memstore

inductive Caller where
  | start | pause | resume | cancel | retry
  | scheduler | finalizer | updateCampaign | ingest | sender
deriving DecidableEq

inductive StoreCall where
  | read
  | ctxErr
  | requeue
  /-- A campaign write, with the row it was derived from. -/
  | campaignUpdate (seen written : Campaign)
  | updateStats
  | insertBatch (newID : Nat → Text) (ds : List Delivery)
  | claim
  | complete
  | markSent
  | releaseExpiredLeases
  | putChunk
  | enqueue

structure Tag where
  caller : Caller
  call : StoreCall

abbrev Proc := Prog Tag TenantStore Err

variable (caller : Caller)

def getCampaign (id : Text) : Proc (Except Err Campaign) :=
  .query ⟨caller, .read⟩ (TenantStore.campaignGet id)

def updateCampaign (seen written : Campaign) : Proc (Except Err Campaign) :=
  .invoke ⟨caller, .campaignUpdate seen written⟩ (TenantStore.campaignUpdate written)

def countByStatus (campaignID : Text) : Proc (Except Err StatusCounts) :=
  .query ⟨caller, .read⟩ (TenantStore.deliveryCountByStatus campaignID)

def ctxErr : Proc (Except Err Unit) :=
  .query ⟨caller, .ctxErr⟩ fun _ => .ok ()

def eventCampaignStarted : Text := text "campaign.started"
def eventCampaignPaused : Text := text "campaign.paused"
def eventCampaignCompleted : Text := text "campaign.completed"
def eventCampaignCancelled : Text := text "campaign.cancelled"

def campaignEvent (c : Campaign) (type : Text) (now : Time) (byStatus : Option StatusCounts) :
    OutboxEvent :=
  { type
    payload := .campaign {
      campaignID := c.id, name := c.name, status := c.status, versionID := c.versionID,
      senderID := c.senderID, occurredAt := now, byStatus }
    createdAt := now
    nextAttemptAt := now }

def enqueueCampaignEvent (newID : Nat → Text) (c : Campaign) (type : Text) (now : Time)
    (byStatus : Option StatusCounts) : Proc (Option Err) := do
  match ← Prog.invoke ⟨caller, .enqueue⟩
      (TenantStore.outboxEnqueue newID [campaignEvent c type now byStatus]) with
  | .error e => return some e
  | .ok () => return none

def allStatuses : List DeliveryStatus :=
  [.pending, .queued, .leased, .deferred, .sent, .failed, .bounced, .complained, .suppressed, .cancelled]

def inflightStatuses : List DeliveryStatus := [.pending, .queued, .leased, .deferred]

def splitCounts (counts : StatusCounts) : Nat × Nat :=
  ((allStatuses.map counts).sum, (inflightStatuses.map counts).sum)

def raced (e : Err) : Bool :=
  e.kind = .conflict || e.kind = .notFound

def invalidTransition (c : Campaign) (action : Text) : Err :=
  .wrap .invalidTransition (text "cannot " ++ action ++ text " campaign " ++ c.id ++
    text " in status " ++ c.status.name)

def resolveCampaignVersion (cam : Campaign) : Proc (Except Err Campaign) := do
  if cam.versionID ≠ [] then return .ok cam
  else if cam.templateID = [] then return .error (.wrap .noVersion (text "campaign " ++ cam.id))
  else match ← Prog.query ⟨caller, .read⟩ (TenantStore.templateGet cam.templateID) with
    | .error e =>
        if e.kind = .notFound then
          return .error (.wrap .noVersion
            (text "template " ++ cam.templateID ++ text " does not exist"))
        else return .error e
    | .ok tpl =>
        if tpl.publishedVersionID = [] then
          return .error (.wrap .noVersion
            (text "template " ++ tpl.id ++ text " has never been published"))
        else return .ok { cam with versionID := tpl.publishedVersionID }

def writeTransition (newID : Nat → Text) (seen written : Campaign) (event : Option Text)
    (now : Time) : Proc (Option Err) := do
  match ← updateCampaign caller seen written with
  | .error e => return some e
  | .ok cam =>
      match event with
      | none => return none
      | some type => enqueueCampaignEvent caller newID cam type now none

def startCampaign (now : Time) (newID : Nat → Text) (id : Text) (time : Time) :
    Proc (Option Err) := do
  match ← getCampaign .start id with
  | .error e => return some e
  | .ok cam =>
      if cam.status ≠ .draft then return some (invalidTransition cam (text "start"))
      else if cam.versionID = [] ∧ cam.templateID = [] then
        return some (.wrap .noVersion (text "campaign " ++ id))
      else if cam.senderID = [] then
        return some (.wrap .noSender (text "campaign " ++ id ++ text " names no sender"))
      else match ← Prog.query ⟨.start, .read⟩ (TenantStore.senderGet cam.senderID) with
        | .error e =>
            if e.kind = .notFound then
              return some (.wrap .noSender
                (text "sender " ++ cam.senderID ++ text " does not exist"))
            else return some e
        | .ok _ =>
            match ← countByStatus .start id with
            | .error e => return some e
            | .ok counts =>
                if (splitCounts counts).1 = 0 then
                  return some (.wrap .noRecipients (text "campaign " ++ id))
                else
                  let time := truncateTime time
                  if time ≠ 0 ∧ time > now then
                    writeTransition .start newID cam
                      { cam with status := .scheduled, scheduleAt := time } none now
                  else match ← resolveCampaignVersion .start cam with
                    | .error e => return some e
                    | .ok bound =>
                        writeTransition .start newID cam
                          { bound with status := .running, startedAt := now }
                          (some eventCampaignStarted) now

def pauseCampaign (now : Time) (newID : Nat → Text) (id : Text) : Proc (Option Err) := do
  match ← getCampaign .pause id with
  | .error e => return some e
  | .ok cam =>
      if cam.status ≠ .running then return some (invalidTransition cam (text "pause"))
      else
        writeTransition .pause newID cam { cam with status := .paused } (some eventCampaignPaused) now

def resumeCampaign (now : Time) (newID : Nat → Text) (id : Text) : Proc (Option Err) := do
  match ← getCampaign .resume id with
  | .error e => return some e
  | .ok cam =>
      if cam.status ≠ .paused then return some (invalidTransition cam (text "resume"))
      else
        writeTransition .resume newID cam
          { cam with
            status := .running
            startedAt := if cam.startedAt = 0 then now else cam.startedAt }
          (some eventCampaignStarted) now

def cancelCampaign (now : Time) (newID : Nat → Text) (id : Text) : Proc (Option Err) := do
  match ← getCampaign .cancel id with
  | .error e => return some e
  | .ok cam =>
      match cam.status with
      | .draft | .scheduled | .running | .paused =>
          writeTransition .cancel newID cam { cam with status := .cancelled, completedAt := now }
            (some eventCampaignCancelled) now
      | _ => return some (invalidTransition cam (text "cancel"))

def maxRetryChunks : Nat := 1000

def defaultRetryStatuses : List DeliveryStatus := [.failed]

/-- The filter the call works with: the caller's, bound to the campaign and
with its defaults filled in. -/
def effectiveFilter (now : Time) (id : Text) (filter : RetryFilter) : RetryFilter :=
  { filter with
    campaignID := id
    now := if filter.now = 0 then now else filter.now
    statuses := if filter.statuses.isEmpty then defaultRetryStatuses else filter.statuses }

/-- The chunk loop, with the passes that are left and the deliveries moved so
far. -/
def requeueChunks (filter : RetryFilter) (chunk : Nat) : Nat → Nat → Proc (Nat × Option Err)
  | 0, total => return (total, none)
  | passes + 1, total => do
      match ← ctxErr .retry with
      | .error e => return (total, some e)
      | .ok () =>
          match ← Prog.invoke ⟨.retry, .requeue⟩ (TenantStore.deliveryRequeue filter chunk) with
          | .error e => return (total, some e)
          | .ok moved =>
              if moved < chunk then return (total + moved, none)
              else requeueChunks filter chunk passes (total + moved)

/-- A draft or scheduled campaign has nothing to retry, a cancelled one is done. -/
def retryable : CampaignStatus → Bool
  | .running | .paused | .completed => true
  | _ => false

/-- The end of a retry: a completed campaign goes back to running, because a
queued delivery of any other campaign is not claimed. -/
def finishRetry (now : Time) (newID : Nat → Text) (cam : Campaign) :
    Nat × Option Err → Proc (Nat × Option Err)
  | (total, some e) => return (total, some e)
  | (total, none) => do
      if total = 0 ∨ cam.status ≠ .completed then return (total, none)
      else
        let failure ← writeTransition .retry newID cam
          { cam with status := .running, completedAt := 0 } (some eventCampaignStarted) now
        return (total, failure)

def retryCampaign (now : Time) (chunk : Nat) (newID : Nat → Text) (id : Text)
    (filter : RetryFilter) : Proc (Nat × Option Err) := do
  match ← getCampaign .retry id with
  | .error e => return (0, some e)
  | .ok cam =>
      if retryable cam.status = false then return (0, some (invalidTransition cam (text "retry")))
      else if filter.deliveryIDs = some [] then return (0, none)
      else
        let outcome ← requeueChunks (effectiveFilter now id filter) chunk maxRetryChunks 0
        finishRetry now newID cam outcome

section

variable {κ : Type} (visit : κ → Campaign → Proc (κ × Option Err))

def visitAll : List Campaign → κ → Proc (κ × Option Err)
  | [], state => return (state, none)
  | c :: rest, state => do
      match ← visit state c with
      | (state, some e) => return (state, some e)
      | (state, none) => visitAll rest state

/-- Walks the campaigns of the given statuses page by page.  The walk has no
bound of its own; the argument is how many pages it gets to. -/
def eachCampaign (statuses : List CampaignStatus) (pageSize : Int) :
    Nat → Text → κ → Proc (κ × Option Err)
  | 0, _, state => return (state, none)
  | pages + 1, cursor, state => do
      match ← ctxErr caller with
      | .error e => return (state, some e)
      | .ok () =>
          match ← Prog.query ⟨caller, .read⟩
              (TenantStore.campaignListByStatus statuses { limit := pageSize, cursor }) with
          | .error e => return (state, some e)
          | .ok res =>
              match ← visitAll visit res.items state with
              | (state, some e) => return (state, some e)
              | (state, none) =>
                  if res.nextCursor = [] then return (state, none)
                  else eachCampaign statuses pageSize pages res.nextCursor state

end

def schedulerVisit (now : Time) (newID : Nat → Text) (_ : Unit) (c : Campaign) :
    Proc (Unit × Option Err) := do
  if c.scheduleAt > now then return ((), none)
  else match ← resolveCampaignVersion .scheduler c with
    | .error _ => return ((), none)
    | .ok bound =>
        match ← updateCampaign .scheduler c { bound with
            status := .running
            startedAt := if bound.startedAt = 0 then now else bound.startedAt } with
        | .error e => return ((), if raced e then none else some e)
        | .ok cam =>
            -- A failed enqueue is logged only.
            let _ ← enqueueCampaignEvent .scheduler newID cam eventCampaignStarted now none
            return ((), none)

def schedulerTick (now : Time) (newID : Nat → Text) (pageSize : Int) (pages : Nat) :
    Proc (Unit × Option Err) :=
  eachCampaign .scheduler (schedulerVisit now newID) [.scheduled] pageSize pages [] ()

structure FinalizerConfig where
  campaignPage : Int := 200
  statsRefreshScan : Nat := 2000
  largeCampaignRows : Nat := 100000
  largeCampaignEvery : Nat := 6
  trackingRefreshWindow : Duration := 1209600000000000

/-- What a finalizer keeps between its ticks: how many ticks each large
campaign is left out for, and where the tracking refresh goes on. -/
structure Finalizer where
  skips : Table Text Nat := ∅
  refreshCursor : Text := []

structure TickState where
  skips : Table Text Nat
  live : List Text := []

def withUniques (stats : CampaignStats) (uniques : TrackingCounts) : CampaignStats :=
  { stats with
    uniqueOpens := uniques.uniqueOpens
    uniqueClicks := uniques.uniqueClicks
    unsubscribed := uniques.unsubscribed
    unsubscribeClicked := uniques.unsubscribeClicked }

/-- The second half of a visit: caches the counts, and completes the campaign
if there was work and none is left. -/
def finalizerConclude (now : Time) (newID : Nat → Text) (state : TickState) (c : Campaign)
    (counts : StatusCounts) (stats : CampaignStats) : Proc (TickState × Option Err) := do
  match ← Prog.invoke ⟨.finalizer, .updateStats⟩ (TenantStore.campaignUpdateStats c.id stats) with
  | .error e => return (state, if raced e then none else some e)
  | .ok () =>
      if (splitCounts counts).1 = 0 ∨ (splitCounts counts).2 > 0 then return (state, none)
      else
        match ← updateCampaign .finalizer c
            { c with stats, status := .completed, completedAt := now } with
        | .error e => return (state, if raced e then none else some e)
        | .ok cam =>
            let _ ← enqueueCampaignEvent .finalizer newID cam eventCampaignCompleted now (some counts)
            return ({ state with skips := state.skips.erase c.id }, none)

def finalizerVisit (config : FinalizerConfig) (now : Time) (newID : Nat → Text)
    (state : TickState) (c : Campaign) : Proc (TickState × Option Err) := do
  let state := { state with live := c.id :: state.live }
  if (state.skips[c.id]?).getD 0 > 0 then
    return ({ state with skips := state.skips.modify c.id (· - 1) }, none)
  else match ← countByStatus .finalizer c.id with
    | .error e => return (state, some e)
    | .ok counts =>
        let skips := if (splitCounts counts).1 > config.largeCampaignRows ∧ config.largeCampaignEvery > 1
          then state.skips.insert c.id (config.largeCampaignEvery - 1) else state.skips.erase c.id
        let counted : CampaignStats := { byStatus := counts, computedAt := now }
        match ← Prog.query ⟨.finalizer, .read⟩ (TenantStore.trackingCountUnique c.id) with
        | .error _ =>
            -- The uniques are optional on the cache; the verdict is not.
            finalizerConclude now newID { state with skips } c counts counted
        | .ok uniques =>
            finalizerConclude now newID { state with skips } c counts (withUniques counted uniques)

def tickRunning (config : FinalizerConfig) (now : Time) (newID : Nat → Text)
    (skips : Table Text Nat) (pages : Nat) : Proc (Table Text Nat × Option Err) := do
  let (state, failure) ← eachCampaign .finalizer (finalizerVisit config now newID) [.running]
    config.campaignPage pages [] { skips }
  return (state.skips.filter fun id _ => state.live.contains id, failure)

def statsRefreshHot : Duration := 3600000000000
def statsRefreshCold : Duration := 600000000000

def statsRefreshDue (c : Campaign) (now : Time) (window : Duration) : Bool :=
  let finished := if c.completedAt = 0 then c.updatedAt else c.completedAt
  if finished = 0 then false
  else if now - finished > window then false
  else if now - finished ≤ statsRefreshHot then true
  else if c.stats.computedAt = 0 then true
  else !(now < c.stats.computedAt + statsRefreshCold)

def refreshOne (c : Campaign) (now : Time) : Proc (Option Err) := do
  match ← Prog.query ⟨.finalizer, .read⟩ (TenantStore.trackingCountUnique c.id) with
  | .error e => return some e
  | .ok uniques =>
      let stats := { withUniques c.stats uniques with computedAt := now }
      match ← Prog.invoke ⟨.finalizer, .updateStats⟩ (TenantStore.campaignUpdateStats c.id stats) with
      | .error e => return if raced e then none else some e
      | .ok () => return none

def refreshAll (now : Time) (window : Duration) : List Campaign → Proc (Option Err)
  | [] => return none
  | c :: rest => do
      if statsRefreshDue c now window then
        match ← refreshOne c now with
        | some e => return some e
        | none => refreshAll now window rest
      else refreshAll now window rest

/-- The refresh walk; it answers with the cursor of the next tick, which is
the one it started from when the context is cancelled. -/
def refreshPages (config : FinalizerConfig) (now : Time) (start : Text) :
    Nat → Nat → Text → Proc (Text × Option Err)
  | 0, _, cursor => return (cursor, none)
  | pages + 1, scanned, cursor => do
      if scanned ≥ config.statsRefreshScan then return (cursor, none)
      else match ← ctxErr .finalizer with
        | .error e => return (start, some e)
        | .ok () =>
            match ← Prog.query ⟨.finalizer, .read⟩ (TenantStore.campaignListByStatus [.completed]
                { limit := config.campaignPage, cursor }) with
            | .error e => return ([], some e)
            | .ok res =>
                match ← refreshAll now config.trackingRefreshWindow res.items with
                | some e => return ([], some e)
                | none =>
                    if res.nextCursor = [] then return ([], none)
                    else refreshPages config now start pages (scanned + res.items.length) res.nextCursor

def refreshTracking (config : FinalizerConfig) (now : Time) (cursor : Text) (pages : Nat) :
    Proc (Text × Option Err) :=
  if config.trackingRefreshWindow ≤ 0 ∨ config.statsRefreshScan = 0 then return (cursor, none)
  else refreshPages config now cursor pages 0 cursor

def finalizerTick (config : FinalizerConfig) (now : Time) (newID : Nat → Text) (f : Finalizer)
    (pages : Nat) : Proc (Finalizer × Option Err) := do
  let (skips, failure) ← tickRunning config now newID f.skips pages
  let (refreshCursor, refreshFailure) ← refreshTracking config now f.refreshCursor pages
  return ({ skips, refreshCursor }, failure <|> refreshFailure)

end Sendplane.Control
