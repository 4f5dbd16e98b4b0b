import Sendplane.Control.Campaign

namespace Sendplane.Ingest

open Data Store Memstore Control Prog

inductive Line where
  | unreadable (failure : Err)
  | tooLong
  | blank
  | rejected (email : Text) (failure : Err)
  | recipient (d : Delivery)

structure LineError where
  line : Nat
  email : Text
  reason : Text
deriving DecidableEq

structure Summary where
  accepted : Int := 0
  duplicates : Int := 0
  invalid : Int := 0
  total : Int := 0
  errors : List LineError := []
deriving DecidableEq

structure Ingester where
  maxRecipients : Int := 10000000
  batchSize : Nat := 2000
  maxLineErrors : Nat := 100

def maxReportedBytes : Nat := 200

def clip (value : Text) : Text :=
  if value.length > maxReportedBytes then value.take maxReportedBytes ++ text "..." else value

/-- The state of one call.  `seen` holds the addresses of the current batch. -/
structure Run where
  batch : List Delivery := []
  seen : List Text := []
  res : Summary := {}

def Run.reject (run : Run) (ing : Ingester) (lineNo : Nat) (email reason : Text) : Run :=
  let errors := if run.res.errors.length ≥ ing.maxLineErrors then run.res.errors
    else run.res.errors ++ [⟨lineNo, clip email, reason⟩]
  { run with res := { run.res with invalid := run.res.invalid + 1, errors } }

def fill (camp : Campaign) (now : Time) (d : Delivery) : Delivery :=
  { d with
    tenantID := camp.tenantID
    campaignID := camp.id
    versionID := camp.versionID
    senderID := camp.senderID
    lane := .bulk
    priority := 0
    status := .pending
    nextAttemptAt := now
    createdAt := now
    updatedAt := now }

def flush (run : Run) : Proc (Run × Option Err) := do
  if run.batch = [] then return (run, none)
  else
    match ← Prog.invoke ⟨.ingest, .insertBatch (fun _ => []) run.batch⟩
        (TenantStore.deliveryInsertBatch (fun _ => []) run.batch) with
    | .error e => return (run, some e)
    | .ok inserted =>
        return ({ res := { run.res with
          accepted := run.res.accepted + inserted
          duplicates := run.res.duplicates + (run.batch.length - inserted) } }, none)

section

variable (ing : Ingester) (camp : Campaign) (now : Time) (existing : Int)

def makeRoom (run : Run) : Proc (Run × Option Err) := do
  if existing + run.res.accepted + run.batch.length ≥ ing.maxRecipients then
    match ← flush run with
    | (run, some e) => return (run, some e)
    | (run, none) =>
        if existing + run.res.accepted ≥ ing.maxRecipients then
          return (run, some (.wrap .tooManyRecipients (text "campaign " ++ camp.id ++
            text " would exceed " ++ text (toString ing.maxRecipients) ++ text " recipients")))
        else return (run, none)
  else return (run, none)

def appendRow (run : Run) (d : Delivery) : Proc (Run × Option Err) := do
  match ← makeRoom ing camp existing run with
  | (run, some e) => return (run, some e)
  | (run, none) =>
      let run := { run with batch := run.batch ++ [d], seen := d.emailNorm :: run.seen }
      if run.batch.length ≥ ing.batchSize then flush run else return (run, none)

def streamLines : Nat → List Line → Run → Proc (Run × Option Err)
  | _, [], run => do
      match ← ctxErr .ingest with
      | .error e => return (run, some e)
      | .ok () => flush run
  | lineNo, line :: rest, run => do
      match ← ctxErr .ingest with
      | .error e => return (run, some e)
      | .ok () =>
          match line with
          | .unreadable e => return (run, some e)
          | .tooLong =>
              streamLines (lineNo + 1) rest
                (run.reject ing lineNo [] (text "ingest: line exceeds the line length limit"))
          | .blank => streamLines (lineNo + 1) rest run
          | .rejected email e => streamLines (lineNo + 1) rest (run.reject ing lineNo email e.message)
          | .recipient d =>
              let d := fill camp now d
              if run.seen.contains d.emailNorm then
                streamLines (lineNo + 1) rest
                  { run with res := { run.res with duplicates := run.res.duplicates + 1 } }
              else match ← appendRow ing camp existing run d with
                | (run, some e) => return (run, some e)
                | (run, none) => streamLines (lineNo + 1) rest run

def stream (lines : List Line) : Proc (Run × Option Err) :=
  if existing ≥ ing.maxRecipients then
    return ({}, some (.wrap .tooManyRecipients (text "campaign " ++ camp.id ++ text " already has " ++
      text (toString existing) ++ text " of " ++ text (toString ing.maxRecipients) ++
      text " recipients")))
  else streamLines ing camp now existing 1 lines {}

end

def count (campaignID : Text) : Proc (Except Err Int) := do
  match ← countByStatus .ingest campaignID with
  | .error e => return .error e
  | .ok counts => return .ok (splitCounts counts).1

def putChunk (c : RecipientChunk) : Proc (Except Err Unit) :=
  .invoke ⟨.ingest, .putChunk⟩ (TenantStore.chunkPut c)

/-- Looks an idempotency key up: a completed chunk replays its counts, any
other one is recorded as in progress. -/
def openChunk (campaignID chunkKey : Text) (existing : Int) : Proc (Except Err (Option Summary)) := do
  if chunkKey = [] then return .ok none
  else match ← Prog.query ⟨.ingest, .read⟩ (TenantStore.chunkGet campaignID chunkKey) with
    | .ok prev =>
        if prev.state = .completed then
          return .ok (some {
            accepted := prev.accepted, duplicates := prev.duplicates, invalid := prev.invalid
            total := existing })
        else recordOpen
    | .error e => if e.kind = .notFound then recordOpen else return .error e
where
  recordOpen : Proc (Except Err (Option Summary)) := do
    match ← putChunk { campaignID, key := chunkKey } with
    | .error e => return .error e
    | .ok () => return .ok none

def closeChunk (campaignID chunkKey : Text) (res : Summary) : Proc (Summary × Option Err) := do
  let completed : RecipientChunk := {
    campaignID, key := chunkKey, state := .completed, accepted := res.accepted
    duplicates := res.duplicates, invalid := res.invalid }
  if chunkKey = [] then return (res, none)
  else match ← putChunk completed with
    | .error e => return (res, some e)
    | .ok () => return (res, none)

/-- Reading a line does not touch the store, so the body is given as its lines with
the outcome of each. -/
def ingest (ing : Ingester) (now : Time) (campaignID chunkKey : Text) (lines : List Line) :
    Proc (Summary × Option Err) := do
  match ← getCampaign .ingest campaignID with
  | .error e => return ({}, some e)
  | .ok c =>
      if c.status ≠ .draft ∧ c.status ≠ .scheduled then
        return ({}, some (.wrap .notEditable (text "campaign " ++ c.id ++ text " is " ++ c.status.name)))
      else match ← count campaignID with
        | .error e => return ({}, some e)
        | .ok existing =>
            match ← openChunk campaignID chunkKey existing with
            | .error e => return ({}, some e)
            | .ok (some replayed) => return (replayed, none)
            | .ok none =>
                let (run, failure) ← stream ing c now existing lines
                match ← count campaignID with
                | .error e => return (run.res, failure <|> some e)
                | .ok total =>
                    let res := { run.res with total }
                    match failure with
                    | some e => return (res, some e)
                    | none => closeChunk campaignID chunkKey res

/-- An ingest looks things up, records its chunk and inserts batches. -/
def IngestCall (tag : Tag) (effect : TenantStore → TenantStore) : Prop :=
  tag.caller = .ingest ∧ ((tag.call = .read ∨ tag.call = .ctxErr) ∧ effect = id ∨
      tag.call = .putChunk ∧ (∃ c, effect = fun s => (s.chunkPut c).2) ∨
      ∃ newID ds, tag.call = .insertBatch newID ds ∧ effect = fun s => (s.deliveryInsertBatch newID ds).2)

variable {α : Type} {next : Except Err Unit → Proc α}

theorem ctxErr_makes (continues : ∀ reply, (next reply).Makes IngestCall (fun _ => True)) :
    (ctxErr .ingest >>= next).Makes IngestCall (fun _ => True) :=
  makes_query ⟨rfl, .inl ⟨.inr rfl, rfl⟩⟩ fun reply _ => continues reply

theorem read_makes {β : Type} {look : TenantStore → Except Err β} {next : Except Err β → Proc α}
    (continues : ∀ reply, (next reply).Makes IngestCall (fun _ => True)) :
    (query ⟨.ingest, .read⟩ look >>= next).Makes IngestCall (fun _ => True) :=
  makes_query ⟨rfl, .inl ⟨.inl rfl, rfl⟩⟩ fun reply _ => continues reply

theorem putChunk_makes {c : RecipientChunk} (continues : ∀ reply, (next reply).Makes IngestCall (fun _ => True)) :
    (putChunk c >>= next).Makes IngestCall (fun _ => True) :=
  makes_invoke ⟨rfl, .inr (.inl ⟨rfl, c, rfl⟩)⟩ continues

theorem flush_makes (run : Run) : (flush run).Makes IngestCall (fun _ => True) := by
  unfold flush
  split
  · trivial
  · apply makes_invoke ⟨rfl, .inr (.inr ⟨_, _, rfl, rfl⟩)⟩
    intro reply
    cases reply <;> trivial

theorem appendRow_makes (run : Run) : (appendRow ing camp existing run d).Makes IngestCall (fun _ => True) := by
  have room : (makeRoom ing camp existing run).Makes IngestCall (fun _ => True) := by
    unfold makeRoom
    split
    · refine (flush_makes run).bind fun outcome _ => ?_
      obtain ⟨next, failure⟩ := outcome
      cases failure with
      | some e => trivial
      | none =>
          dsimp only
          split <;> trivial
    · trivial
  apply room.bind
  intro outcome _
  obtain ⟨next, failure⟩ := outcome
  cases failure with
  | some e => trivial
  | none =>
      dsimp only
      split
      · exact flush_makes _
      · trivial

theorem streamLines_makes (lineNo : Nat) (run : Run) :
    (streamLines ing camp now existing lineNo lines run).Makes IngestCall (fun _ => True) := by
  induction lines generalizing lineNo run with
  | nil =>
      apply ctxErr_makes
      intro reply
      cases reply with
      | error e => trivial
      | ok _ => exact flush_makes run
  | cons line rest ih =>
      apply ctxErr_makes
      intro reply
      cases reply with
      | error e => trivial
      | ok _ =>
          cases line with
          | unreadable e => trivial
          | tooLong | blank | rejected => exact ih _ _
          | recipient d =>
              dsimp only
              split
              · exact ih _ _
              · refine (appendRow_makes _).bind fun outcome _ => ?_
                obtain ⟨next, failure⟩ := outcome
                cases failure with
                | some e => trivial
                | none => exact ih _ _

theorem count_makes : (count campaignID).Makes IngestCall (fun _ => True) := by
  apply read_makes
  intro reply
  cases reply <;> trivial

theorem openChunk_makes : (openChunk campaignID chunkKey existing).Makes IngestCall (fun _ => True) := by
  have records : (openChunk.recordOpen campaignID chunkKey).Makes IngestCall (fun _ => True) := by
    apply putChunk_makes
    intro reply
    cases reply <;> trivial
  unfold openChunk
  split
  · trivial
  apply read_makes
  intro reply
  cases reply with
  | ok prev =>
      dsimp only
      split
      · trivial
      · exact records
  | error e =>
      dsimp only
      split
      · exact records
      · trivial

theorem ingest_makes : (ingest ing now campaignID chunkKey lines).Makes IngestCall (fun _ => True) := by
  apply read_makes
  intro reply
  cases reply with
  | error e => trivial
  | ok c =>
      dsimp only
      split
      · trivial
      refine count_makes.bind fun reply _ => ?_
      cases reply with
      | error e => trivial
      | ok existing =>
          refine openChunk_makes.bind fun reply _ => ?_
          rcases reply with e | _ | replayed
          · trivial
          · have streamed : (stream ing c now existing lines).Makes IngestCall (fun _ => True) := by
              unfold stream
              split
              · trivial
              · exact streamLines_makes _ _
            refine streamed.bind fun outcome _ => count_makes.bind fun reply _ => ?_
            cases reply with
            | error e => trivial
            | ok total =>
                obtain ⟨run, failure⟩ := outcome
                cases failure with
                | some e => trivial
                | none =>
                    dsimp only [closeChunk]
                    split
                    · trivial
                    · apply putChunk_makes
                      intro reply
                      cases reply <;> trivial
          · trivial

end Sendplane.Ingest
