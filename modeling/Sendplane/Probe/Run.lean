import Sendplane.Data.Prog
import Sendplane.Mbhealth.Record
import Sendplane.Memstore.Probe

namespace Sendplane.Probe

open Data Store Memstore Mbhealth

inductive Call where
  | read
  | updateRun (seen written : ProbeRun)
  | updateHealth
  | updateSender
  | enqueue

abbrev Proc := Prog Call TenantStore Err

structure Observation where
  trustedAR : Bool := false
  spf : Text := []
  dkim : Text := []
  dmarc : Text := []
  dkimDomain : Text := []
  dkimSelector : Text := []
  dmarcPolicy : Text := []
  folder : Text := []
  tls : Bool := false
  observedIP : Option Text := none
  ptr : Text := []
  ptrChecked : Bool := false
  ptrMatch : Bool := false
  latency : Duration := 0

structure Evidence where
  observation : Observation
  /-- The channel's own timestamp, or else the one of the newest header. -/
  receivedAt : Option Time := none
  rawHeaders : Text := []

structure PTRResult where
  fcrdns : Bool
  ptr : Text

structure Report where
  status : HealthStatus
  firstRedSummary : Text
  ptr : Option PTRResult
  encoded : Text

structure Runner where
  timeout : Duration := 900000000000
  timeoutName : Text := text "15m0s"
  consecutiveFailuresForRed : Nat := 2
  /-- The DNS check for a sender and an address the probe was seen from, with
  the lookups of the sender and its domain. -/
  dns : Option (Text → Option Text → TenantStore → Except Err (Option Report)) := none
  verdict : Observation → HealthStatus × Text
  mapOrder : List Text → List Text := id
  newID : Nat → Text
  pages : Nat := 1

variable (r : Runner)

def drain {α : Type} (list : Page → TenantStore → Except Err (Result α)) :
    Nat → Text → List α → Proc (Except Err (List α))
  | 0, _, out => return .ok out
  | pages + 1, cursor, out => do
      match ← Prog.query .read (list { limit := maxPageLimit, cursor }) with
      | .error e => return .error e
      | .ok res =>
          if res.nextCursor = [] then return .ok (out ++ res.items)
          else drain list pages res.nextCursor (out ++ res.items)

def pendingRuns : Proc (Except Err (List ProbeRun)) :=
  drain TenantStore.probeRunListPending r.pages [] []

def runsOf (senderID : Text) : Proc (Except Err (List ProbeRun)) :=
  drain (TenantStore.probeRunListBySender senderID) r.pages [] []

/-- A failed check is logged, and there is no report then. -/
def runDNS (senderID : Text) (observedIP : Option Text) : Proc (Option Report) := do
  match r.dns with
  | none => return none
  | some check =>
      match ← Prog.query .read (check senderID observedIP) with
      | .error _ => return none
      | .ok report => return report

def updateRun (seen written : ProbeRun) : Proc (Option Err) := do
  match ← Prog.invoke (.updateRun seen written) (TenantStore.probeRunUpdate written) with
  | .error e => return some e
  | .ok _ => return none

def withPTR (obs : Observation) : Option Report → Observation
  | some { ptr := some res, .. } => { obs with ptrChecked := true, ptrMatch := res.fcrdns, ptr := res.ptr }
  | _ => obs

def loopbackPassed : Text := text "루프백은 통과했지만 DNS 정적 검사가 실패했습니다"

def maxRawHeaders : Nat := 16384

def capRawHeaders (s : Text) : Text :=
  s.take maxRawHeaders

def completedRun (run : ProbeRun) (ev : Evidence) (report : Option Report) (now : Time) : ProbeRun :=
  let obs := withPTR ev.observation report
  let (status, reason) := r.verdict obs
  let dnsRed := report.any (·.status = .red) && status = .green
  { run with
    status := if dnsRed then .yellow else status
    reason := if dnsRed then loopbackPassed else reason
    delivered := true
    folder := obs.folder
    latency := obs.latency
    spf := obs.spf, dkim := obs.dkim, dmarc := obs.dmarc
    dkimDomain := obs.dkimDomain, dkimSelector := obs.dkimSelector
    dmarcPolicy := obs.dmarcPolicy
    tls := obs.tls
    observedIP := obs.observedIP.getD run.observedIP
    ptr := obs.ptr, ptrMatch := obs.ptrMatch
    rawHeaders := capRawHeaders ev.rawHeaders
    receivedAt := truncateTime (ev.receivedAt.getD now)
    pending := false
    dns := (report.map Report.encoded).getD run.dns }

def completeRun (run : ProbeRun) (ev : Evidence) (now : Time) : Proc (Option Err) := do
  let report ← runDNS r run.senderID ev.observation.observedIP
  updateRun run (completedRun r run ev report now)

/-- How many finished runs in a row were undelivered, newest first.  A run
that was closed because its mailbox could not be opened does not count. -/
def streakOf (run : ProbeRun) : List ProbeRun → Nat
  | [] => 0
  | prev :: rest =>
      if prev.id = run.id ∨ prev.mailboxID ≠ run.mailboxID ∨ prev.pending then streakOf run rest
      else if prev.status = .unknown ∧ prev.delivered = false then streakOf run rest
      else if prev.delivered then 0
      else streakOf run rest + 1

def undeliveredVerdict (subject : Text) (streak : Nat) : HealthStatus × Text :=
  if streak ≥ r.consecutiveFailuresForRed then
    (.red, subject ++ text " 도착하지 않았습니다 (연속 " ++ text (toString streak) ++ text "회)")
  else
    (.yellow, subject ++ text " " ++ r.timeoutName ++ text " 안에 도착하지 않았습니다 (" ++
      text (toString streak) ++ text "/" ++ text (toString r.consecutiveFailuresForRed) ++ text ")")

def undeliveredRun (run : ProbeRun) (subject : Text) (streak : Nat) (report : Option Report) :
    ProbeRun :=
  let (status, reason) := undeliveredVerdict r subject streak
  { run with
    status
    reason := match report with
      | some report =>
          if report.status = .red then reason ++ text " · " ++ report.firstRedSummary else reason
      | none => reason
    delivered := false
    receivedAt := 0
    pending := false
    dns := (report.map Report.encoded).getD run.dns }

def finishUndelivered (run : ProbeRun) (subject : Text) : Proc (Option Err) := do
  match ← runsOf r run.senderID with
  | .error e => return some e
  | .ok runs =>
      let report ← runDNS r run.senderID none
      updateRun run (undeliveredRun r run subject (streakOf run runs.reverse + 1) report)

def finishUnreachable (run : ProbeRun) (stage : Text) : Proc (Option Err) :=
  updateRun run { run with
    status := .unknown
    reason := text "probe mailbox unreachable: " ++ stage
    delivered := false
    receivedAt := 0
    pending := false }

def stageWebhook : Text := text "webhook"

/-- Files one observation about a mailbox.  Its callers log a failure and go
on. -/
def recordHealth (box : ProbeMailbox) (outcome : Outcome) (now : Time) : Proc (Option Err) := do
  match ← Prog.invoke .updateHealth
      (TenantStore.probeMailboxUpdateHealth box.id (nextHealth box.health outcome now)) with
  | .error e => return some e
  | .ok () =>
      match notice .probe ⟨box.id, box.name, box.health⟩ outcome now with
      | none => return none
      | some { type, body, createdAt, nextAttemptAt, .. } =>
          let event : OutboxEvent := { type, payload := .probeMailbox body, createdAt, nextAttemptAt }
          match ← Prog.invoke .enqueue (TenantStore.outboxEnqueue r.newID [event]) with
          | .error e => return some e
          | .ok () => return none

def worst (a b : HealthStatus) : HealthStatus :=
  if b.rank > a.rank then b else a

def latestRuns (runs : List ProbeRun) : Table Text ProbeRun :=
  runs.foldl (fun latest run =>
    if run.pending then latest
    else match latest[run.mailboxID]? with
      | none => latest.insert run.mailboxID run
      | some cur => if compare run.id cur.id = .gt then latest.insert run.mailboxID run else latest) ∅

def summaryReason : List Text → Text
  | [] => []
  | [reason] => reason
  | reason :: more =>
      reason ++ text " (메일박스 " ++ text (toString (more.length + 1)) ++ text "곳)"

def summarize (runs : List ProbeRun) : Option (HealthStatus × Text) :=
  let latest := latestRuns runs
  if latest.isEmpty then none
  else
    let newest := (r.mapOrder latest.keys).filterMap fun id => latest[id]?
    let status := newest.foldl (fun status run => worst status run.status) .unknown
    let reasons := (newest.filter fun run => run.status = status ∧ run.reason ≠ []).map ProbeRun.reason
    some (status, summaryReason reasons)

/-- Writes the verdict, trying again after a lost race. -/
def setSenderHealth (senderID : Text) (status : HealthStatus) (reason : Text) (now : Time) :
    Nat → Proc (Option Err)
  | 0 => return none
  | attempts + 1 => do
      match ← Prog.query .read (TenantStore.senderGet senderID) with
      | .error e => return some e
      | .ok snd =>
          let edited := { snd with
            health := status, healthReason := reason, healthCheckedAt := truncateTime now }
          match ← Prog.invoke .updateSender (TenantStore.senderUpdate edited) with
          | .error e =>
              if e.kind = .conflict ∧ attempts > 0 then setSenderHealth senderID status reason now attempts
              else return some e
          | .ok written =>
              if snd.health = status then return none
              else
                let event : OutboxEvent :=
                  { type := text "sender.health_changed"
                    payload := .healthChanged {
                      senderID := written.id, name := written.name, source := snd.health
                      target := written.health, reason := written.healthReason
                      checkedAt := written.healthCheckedAt, occurredAt := now }
                    createdAt := now
                    nextAttemptAt := now }
                match ← Prog.invoke .enqueue (TenantStore.outboxEnqueue r.newID [event]) with
                | .error e => return some e
                | .ok () => return none

def refreshSenderHealth (senderID : Text) (now : Time) : Proc (Option Err) := do
  match ← runsOf r senderID with
  | .error e => return some e
  | .ok runs =>
      match summarize r runs with
      | none => return none
      | some (status, reason) => setSenderHealth r senderID status reason now 3

/-- What the mailboxes answer: the failure to open one, with its stage, and
what a search for the mail of a run finds. -/
structure Mailroom where
  opens : Text → Option (Err × Text)
  finds : Text → Except Err (Option Evidence)

structure Progress where
  touched : List Text := []
  firstErr : Option Err := none

def Progress.failed (progress : Progress) (e : Err) : Progress :=
  { progress with firstErr := progress.firstErr <|> some e }

def Progress.finished (progress : Progress) (senderID : Text) : Option Err → Progress
  | some e => progress.failed e
  | none => { progress with touched := progress.touched.insert senderID }

/-- One pending run, with the connection to its mailbox: `none` when there is
nothing to connect to. -/
def collectRun (room : Mailroom) (opened : Option (Option (Err × Text))) (run : ProbeRun)
    (progress : Progress) (now : Time) : Proc Progress := do
  let found := if opened = some none then room.finds run.id else .ok none
  let progress := match found with
    | .error e => progress.failed e
    | .ok _ => progress
  match found with
  | .ok (some ev) => return progress.finished run.senderID (← completeRun r run ev now)
  | _ =>
      if now - run.startedAt ≥ r.timeout then
        match opened with
        | some (some (_, stage)) =>
            return progress.finished run.senderID (← finishUnreachable run stage)
        | _ => return progress.finished run.senderID (← finishUndelivered r run (text "메일이"))
      else return progress

def collectRuns (room : Mailroom) (opened : Option (Option (Err × Text))) (now : Time) :
    List ProbeRun → Progress → Proc Progress
  | [], progress => return progress
  | run :: rest, progress => do
      let progress ← collectRun r room opened run progress now
      collectRuns room opened now rest progress

/-- A webhook mailbox has nothing to fetch; only the timeouts are closed. -/
def closeWebhookRuns (now : Time) : List ProbeRun → Bool → Progress → Proc (Bool × Progress)
  | [], timedOut, progress => return (timedOut, progress)
  | run :: rest, timedOut, progress => do
      if now - run.startedAt < r.timeout then closeWebhookRuns now rest timedOut progress
      else
        let failure ← finishUndelivered r run (text "웹훅으로 프로브가")
        closeWebhookRuns now rest (timedOut || failure.isNone) (progress.finished run.senderID failure)

def collectMailbox (room : Mailroom) (box : ProbeMailbox) (pending : List ProbeRun)
    (progress : Progress) (now : Time) : Proc Progress := do
  if box.kind = .webhook then
    let (timedOut, progress) ← closeWebhookRuns r now pending false progress
    if timedOut ∧ box.id ≠ [] then
      let _ ← recordHealth r box (.fail stageWebhook (text "no probe received within timeout")) now
      return progress
    else return progress
  else if box.enabled ∨ box.host ≠ [] ∨ box.address ≠ [] then
    match room.opens box.id with
    | some (e, stage) =>
        let _ ← recordHealth r box (.fail stage e.message) now
        collectRuns r room (some (some (e, stage))) now pending (progress.failed e)
    | none =>
        let _ ← recordHealth r box .ok now
        collectRuns r room (some none) now pending progress
  else collectRuns r room none now pending progress

def collectMailboxes (room : Mailroom) (boxes : List ProbeMailbox) (waiting : List ProbeRun)
    (now : Time) : List Text → Progress → Proc Progress
  | [], progress => return progress
  | mailboxID :: rest, progress => do
      let box := (boxes.find? fun box => box.id = mailboxID).getD { id := mailboxID }
      let pending := waiting.filter fun run => run.mailboxID = mailboxID
      let progress ← collectMailbox r room box pending progress now
      collectMailboxes room boxes waiting now rest progress

def refreshTouched (now : Time) : List Text → Option Err → Proc (Option Err)
  | [], firstErr => return firstErr
  | senderID :: rest, firstErr => do
      let failure ← refreshSenderHealth r senderID now
      refreshTouched now rest (firstErr <|> failure)

def collectWith (room : Mailroom) (now : Time) : Proc (Option Err) := do
  match ← pendingRuns r with
  | .error e => return some e
  | .ok waiting =>
      if waiting = [] then return none
      else match ← drain TenantStore.probeMailboxList r.pages [] [] with
        | .error e => return some e
        | .ok boxes =>
            -- A run without a mailbox waits for nothing.
            let all := ((waiting.map ProbeRun.mailboxID).filter (· ≠ [])).dedup
            let progress ← collectMailboxes r room boxes waiting now (r.mapOrder all) {}
            refreshTouched r now (r.mapOrder progress.touched) progress.firstErr

inductive InboundOutcome where
  | accepted | ignored | deferred

structure InboundMessage where
  hasToken : Bool := true
  seen : Bool := false
  /-- The run the token names, if the token is well formed. -/
  runID : Option Text
  verified : Bool := true
  evidence : Evidence

def handleInboundMessage (msg : InboundMessage) (now : Time) : Proc InboundOutcome := do
  if msg.hasToken = false then return .ignored
  else if msg.seen then return .accepted
  else match msg.runID with
    | none => return .ignored
    | some runID =>
        match ← Prog.query .read (TenantStore.probeRunGet runID) with
        | .error e => return if e.kind = .notFound then .ignored else .deferred
        | .ok run =>
            if msg.verified = false then return .ignored
            else if run.pending = false then return .accepted
            else match ← Prog.query .read (TenantStore.probeMailboxGet run.mailboxID) with
              | .error e =>
                  if e.kind ≠ .notFound then return .deferred
                  else match ← completeRun r run msg.evidence now with
                    | some _ => return .deferred
                    | none =>
                        let _ ← refreshSenderHealth r run.senderID now
                        return .accepted
              | .ok box =>
                  match ← completeRun r run msg.evidence now with
                  | some _ => return .deferred
                  | none =>
                      let _ ← refreshSenderHealth r run.senderID now
                      let _ ← recordHealth r box .ok now
                      return .accepted

end Sendplane.Probe
