import Sendplane.Probe.Run

namespace Sendplane.Probe

open Data Store Memstore Prog TenantStore Pool System

/-- A call leaves the runs alone, or writes one back that was read as pending. -/
def RunCall (call : Call) (effect : TenantStore → TenantStore) : Prop :=
  (∀ s, (effect s).probeRuns = s.probeRuns) ∨
    ∃ seen written, call = .updateRun seen written ∧ seen.pending = true ∧ written.id = seen.id ∧
      effect = fun s => (s.probeRunUpdate written).2

/-- A run is only written from a copy that was read as pending. -/
def Careful {α : Type} (proc : Proc α) : Prop :=
  proc.Makes RunCall fun _ => True

variable {α β : Type} {r : Runner} {run : ProbeRun} {now : Time}

theorem ends (value : α) : Careful (pure value) := trivial

theorem Careful.bind (careful : Careful proc) (continues : ∀ value, Careful (next value)) : Careful (proc >>= next) :=
  Makes.bind careful fun value _ => continues value

variable {call : Call} {next : Except Err β → Proc α}

theorem query_careful
    (continues : ∀ reply, (∀ value, reply = .ok value → ∃ s, look s = .ok value) → Careful (next reply)) :
    Careful (query call look >>= next) :=
  makes_query (.inl fun _ => rfl) continues

theorem quiet_careful (untouched : ∀ s, (op s).2.probeRuns = s.probeRuns)
    (continues : ∀ reply, Careful (next reply)) : Careful (invoke call op >>= next) :=
  makes_invoke (.inl untouched) continues

theorem drain_makes {test : α → Prop} (passes : ∀ page s res, list page s = .ok res → ∀ item ∈ res.items, test item)
    (passed : ∀ item ∈ out, test item) :
    (drain list pages cursor out).Makes RunCall fun reply =>
      ∀ items, reply = .ok items → ∀ item ∈ items, test item := by
  induction pages generalizing cursor out with
  | zero =>
      intro items same
      cases same
      exact passed
  | succ pages ih =>
      apply makes_query (.inl fun _ => rfl)
      intro reply answer
      cases reply with
      | error e =>
          intro items same
          cases same
      | ok res =>
          obtain ⟨s, listed⟩ := answer res rfl
          have grown : ∀ item ∈ out ++ res.items, test item := by
            intro item member
            rcases List.mem_append.mp member with old | new
            · exact passed item old
            · exact passes _ s res listed item new
          dsimp only
          split
          · intro items same
            cases same
            exact grown
          · exact ih grown

theorem drain_careful : Careful (drain list pages cursor out) :=
  (drain_makes (fun _ _ _ _ _ _ => trivial) fun _ _ => trivial).weaken fun _ _ => trivial

variable {senderID : Text}

theorem runDNS_careful : Careful (runDNS r senderID observedIP) := by
  unfold runDNS
  split
  · exact ends _
  · apply query_careful
    intro reply _
    cases reply <;> exact ends _

section

variable (pending : run.pending = true)
include pending

theorem updateRun_careful (sameID : written.id = run.id) : Careful (updateRun run written) := by
  apply makes_invoke (.inr ⟨run, written, rfl, pending, sameID, rfl⟩)
  intro reply
  cases reply <;> exact ends _

theorem completeRun_careful : Careful (completeRun r run ev now) :=
  runDNS_careful.bind fun _ => updateRun_careful pending rfl

theorem finishUndelivered_careful {subject : Text} : Careful (finishUndelivered r run subject) := by
  apply Careful.bind drain_careful
  intro reply
  cases reply with
  | error e => exact ends _
  | ok runs => exact runDNS_careful.bind fun _ => updateRun_careful pending rfl

theorem finishUnreachable_careful : Careful (finishUnreachable run stage) :=
  updateRun_careful pending rfl

end

theorem recordHealth_careful {outcome : Mbhealth.Outcome} : Careful (recordHealth r box outcome now) := by
  refine quiet_careful (fun s => ?_) fun reply => ?_
  · unfold probeMailboxUpdateHealth
    split <;> rfl
  cases reply with
  | error e => exact ends _
  | ok _ =>
      dsimp only
      split
      · exact ends _
      · apply quiet_careful (fun _ => rfl)
        intro reply
        cases reply <;> exact ends _

theorem setSenderHealth_careful : Careful (setSenderHealth r senderID status reason now attempts) := by
  induction attempts with
  | zero => exact ends _
  | succ attempts ih =>
      apply query_careful
      intro reply _
      cases reply with
      | error e => exact ends _
      | ok snd =>
          apply quiet_careful (fun _ => rfl)
          intro reply
          cases reply with
          | error e =>
              dsimp only
              split
              · exact ih
              · exact ends _
          | ok written =>
              dsimp only
              split
              · exact ends _
              · apply quiet_careful (fun _ => rfl)
                intro reply
                cases reply <;> exact ends _

theorem refreshSenderHealth_careful : Careful (refreshSenderHealth r senderID now) := by
  apply Careful.bind drain_careful
  intro reply
  cases reply with
  | error e => exact ends _
  | ok runs =>
      dsimp only
      split
      · exact ends _
      · exact setSenderHealth_careful

variable {room : Mailroom}

theorem collectRun_careful (pending : run.pending = true) : Careful (collectRun r room opened run progress now) := by
  unfold collectRun
  dsimp only
  split
  · exact (completeRun_careful pending).bind fun _ => ends _
  · split
    · split
      · exact (finishUnreachable_careful pending).bind fun _ => ends _
      · exact (finishUndelivered_careful pending).bind fun _ => ends _
    · exact ends _

theorem collectRuns_careful (pending : ∀ run ∈ runs, run.pending = true) :
    Careful (collectRuns r room opened now runs progress) := by
  induction runs generalizing progress with
  | nil => exact ends _
  | cons run rest ih =>
      refine (collectRun_careful (pending run List.mem_cons_self)).bind fun _ => ?_
      exact ih fun other member => pending other (List.mem_cons_of_mem _ member)

theorem closeWebhookRuns_careful (pending : ∀ run ∈ runs, run.pending = true) :
    Careful (closeWebhookRuns r now runs timedOut progress) := by
  induction runs generalizing timedOut progress with
  | nil => exact ends _
  | cons run rest ih =>
      have others : ∀ other ∈ rest, other.pending = true :=
        fun other member => pending other (List.mem_cons_of_mem _ member)
      unfold closeWebhookRuns
      split
      · exact ih others
      · exact (finishUndelivered_careful (pending run List.mem_cons_self)).bind fun _ => ih others

theorem collectMailbox_careful (pending : ∀ run ∈ runs, run.pending = true) :
    Careful (collectMailbox r room box runs progress now) := by
  unfold collectMailbox
  split
  · refine (closeWebhookRuns_careful pending).bind fun outcome => ?_
    dsimp only
    split
    · exact recordHealth_careful.bind fun _ => ends _
    · exact ends _
  split
  · split <;> exact recordHealth_careful.bind fun _ => collectRuns_careful pending
  · exact collectRuns_careful pending

theorem collectMailboxes_careful (pending : ∀ run ∈ waiting, run.pending = true) :
    Careful (collectMailboxes r room boxes waiting now mailboxes progress) := by
  induction mailboxes generalizing progress with
  | nil => exact ends _
  | cons mailboxID rest ih =>
      refine (collectMailbox_careful fun run member => ?_).bind fun _ => ih
      exact pending run (List.mem_of_mem_filter member)

theorem refreshTouched_careful {senders : List Text} {firstErr : Option Err} :
    Careful (refreshTouched r now senders firstErr) := by
  induction senders generalizing firstErr with
  | nil => exact ends _
  | cons senderID rest ih => exact refreshSenderHealth_careful.bind fun _ => ih

theorem collectWith_careful : Careful (collectWith r room now) := by
  have listed : (pendingRuns r).Makes RunCall fun reply =>
      ∀ runs, reply = .ok runs → ∀ run ∈ runs, run.pending = true := by
    refine drain_makes ?_ (by simp)
    intro page s res answer run member
    simp only [probeRunListPending, Except.ok.injEq] at answer
    rw [← answer] at member
    exact (mem_paginate member).1
  apply Makes.bind listed
  intro reply pending
  cases reply with
  | error e => exact ends _
  | ok waiting =>
      dsimp only
      split
      · exact ends _
      · apply Careful.bind drain_careful
        intro reply
        cases reply with
        | error e => exact ends _
        | ok boxes =>
            exact (collectMailboxes_careful (pending waiting rfl)).bind fun _ => refreshTouched_careful

theorem handleInboundMessage_careful : Careful (handleInboundMessage r msg now) := by
  unfold handleInboundMessage
  split
  · exact ends _
  split
  · exact ends _
  split
  · exact ends _
  apply query_careful
  intro reply _
  cases reply with
  | error e => exact ends _
  | ok run =>
      dsimp only
      split
      · exact ends _
      split
      · exact ends _
      next waiting =>
      have pending : run.pending = true := by simpa using waiting
      apply query_careful
      intro reply _
      cases reply with
      | error e =>
          dsimp only
          split
          · exact ends _
          refine (completeRun_careful pending).bind fun outcome => ?_
          cases outcome with
          | some e => exact ends _
          | none => exact refreshSenderHealth_careful.bind fun _ => ends _
      | ok box =>
          refine (completeRun_careful pending).bind fun outcome => ?_
          cases outcome with
          | some e => exact ends _
          | none =>
              exact refreshSenderHealth_careful.bind fun _ => recordHealth_careful.bind fun _ => ends _

inductive Operation where
  | collect (r : Runner) (room : Mailroom) (now : Time)
  | inbound (r : Runner) (msg : InboundMessage) (now : Time)

def program : Operation → Prog Call TenantStore Err Unit
  | .collect r room now => (collectWith r room now).discard
  | .inbound r msg now => (handleInboundMessage r msg now).discard

def WritesWhatItRead : Call → Option Err → TenantStore → Prop
  | .updateRun seen _, none, s => s.probeRuns[seen.id]? = some seen
  | _, _, _ => True

/-- Finished runs stay as they are. -/
def FinishedKept (before after : TenantStore) : Prop :=
  ∀ (id : Text) (run : ProbeRun), before.probeRuns[id]? = some run → run.pending = false →
    after.probeRuns[id]? = some run

def keeping : Discipline Call TenantStore Err where
  allowed := WritesWhatItRead
  guarantee _ := FinishedKept

theorem updateRun_keeps {seen written : ProbeRun} (pending : seen.pending = true) (sameID : written.id = seen.id)
    (stored : s.probeRuns[seen.id]? = some seen) : FinishedKept s (s.probeRunUpdate written).2 := by
  intro id run found finished
  have other : written.id ≠ id := by
    intro same
    rw [← same, sameID, stored] at found
    cases found
    rw [pending] at finished
    cases finished
  rcases update_cases probeRunMeta s.tenant s.now s.probeRuns written with ⟨failure, failed⟩ | ⟨cur, _, _, updated⟩
  · rw [probeRunUpdate, failed]
    exact found
  · rw [probeRunUpdate, updated]
    change (s.probeRuns.insert written.id _)[id]? = some run
    rw [Table.get_insert_ne other]
    exact found

theorem program_careful : Careful (program operation) := by
  cases operation with
  | collect r room now => exact collectWith_careful.bind fun _ => ends _
  | inbound r msg now => exact handleInboundMessage_careful.bind fun _ => ends _

theorem program_keeps (operation : Operation) (s : TenantStore) :
    (program operation).Respects keeping (fun _ _ => True) s := by
  refine Makes.respects program_careful ?_
  intro call effect s fits allowed
  rcases fits with untouched | ⟨seen, written, rfl, pending, sameID, rfl⟩
  · intro id run found _
    rw [untouched]
    exact found
  · exact updateRun_keeps pending sameID allowed

abbrev Workers := Pool Call TenantStore Err

/-- Once a run is finished it stays as it is, in every run of collectors and
webhooks in which each write meets the row it was made from. -/
theorem finished_kept_of_fresh_writes {start pool later : Workers} (idle : start.threads = [])
    (reached : (Pool.system program).Reaches (Pool.Permits WritesWhatItRead) start pool)
    (onward : (Pool.system program).Reaches (Pool.Permits WritesWhatItRead) pool later) :
    FinishedKept pool.store later.store := by
  intro id run stored finished
  have spawned := fun operation s (_ : True) => program_keeps operation s
  have stable : keeping.Stable fun _ => True := fun _ _ _ _ _ => trivial
  obtain ⟨_, disciplined⟩ := disciplined_of_reaches spawned stable idle trivial reached
  obtain ⟨meanwhile, _⟩ := interferes_of_reaches spawned stable disciplined trivial onward
  have kept : keeping.Stable fun s => s.probeRuns[id]? = some run :=
    fun _ _ _ guaranteed found => guaranteed id run found finished
  exact kept.interferes meanwhile stored

instance (call : Call) (failure : Option Err) (s : TenantStore) :
    Decidable (WritesWhatItRead call failure s) :=
  decidable_of_bool (match call, failure with
    | .updateRun seen _, none => s.probeRuns[seen.id]? = some seen
    | _, _ => true) <| by
      unfold WritesWhatItRead
      split <;> simp

def waitingStore : TenantStore where
  probeMailboxes := (∅ : Table Text ProbeMailbox).insert (text "m1") { id := text "m1", kind := .webhook }
  probeRuns := (∅ : Table Text ProbeRun).insert (text "r1")
    { id := text "r1", senderID := text "s1", mailboxID := text "m1", pending := true, startedAt := 1000000 }

def runner : Runner where
  verdict _ := (.green, text "spf/dkim/dmarc pass, TLS")
  newID _ := text "e1"

def arrival : Operation :=
  .inbound runner { runID := some (text "r1"), evidence := { observation := {} } } 900001000000

def timeout : Operation :=
  .collect runner { opens := fun _ => none, finds := fun _ => .ok none } 900001000000

/-- A collector that starts after the arrival finds nothing to close. -/
theorem finished_kept_after_arrival :
    ∃ pool later, (Pool.system program).run ⟨waitingStore, []⟩
        (.spawn arrival :: .replicate 6 (.advance 0 none)) = some pool ∧
      (Pool.system program).run pool [.spawn timeout, .advance 1 none] = some later ∧
      (pool.store.probeRuns[text "r1"]?).map ProbeRun.pending = some false ∧ FinishedKept pool.store later.store := by
  let arrives : List (Move Operation Err) := .spawn arrival :: .replicate 6 (.advance 0 none)
  have guarded : (system program).Guarded (Permits WritesWhatItRead) ⟨waitingStore, []⟩
      (arrives ++ [.spawn timeout, .advance 1 none]) := by decide
  have closed : ((system program).run ⟨waitingStore, []⟩ arrives).map (fun pool =>
    (pool.store.probeRuns[text "r1"]?).map ProbeRun.pending) = some (some false) := by decide
  obtain ⟨later, completed⟩ := Option.isSome_iff_exists.mp
    (by decide : ((system program).run ⟨waitingStore, []⟩
      (arrives ++ [.spawn timeout, .advance 1 none])).isSome = true)
  obtain ⟨pool, ran, reached, remaining, last⟩ := cut_run guarded completed
  rw [ran] at closed
  exact ⟨pool, later, ran, last, Option.some.inj closed,
    finished_kept_of_fresh_writes rfl reached (reaches_of_run remaining last)⟩

/-- The collector has read the run as pending and found its time to be up.
Before it writes, the mail arrives; the collector then closes the delivered run
as undelivered. -/
theorem collector_overwrites_arrival :
    ¬ ∀ (start pool later : Workers), start.threads = [] →
        (Pool.system program).Reachable start pool → (Pool.system program).Reachable pool later →
        FinishedKept pool.store later.store := by
  intro claimed
  let labels : List (Move Operation Err) := [.spawn timeout] ++ .replicate 3 (.advance 0 none) ++
    [.spawn arrival] ++ .replicate 3 (.advance 1 none)
  let delivered := fun pool : Workers =>
    (pool.store.probeRuns[text "r1"]?).map fun run => (run.pending, run.delivered)
  have arrived : ((system program).run ⟨waitingStore, []⟩ labels).map delivered = some (some (false, true)) := by decide
  have closed : ((system program).run ⟨waitingStore, []⟩ (labels ++ [.advance 0 none])).map
      delivered = some (some (false, false)) := by decide
  obtain ⟨later, completed, undelivered⟩ := Option.map_eq_some_iff.mp closed
  obtain ⟨pool, ran, reached, _, last⟩ := cut_run (guarded_true _) completed
  rw [ran] at arrived
  obtain ⟨run, stored, fields⟩ := Option.map_eq_some_iff.mp (Option.some.inj arrived)
  obtain ⟨finished, isDelivered⟩ := Prod.mk.inj fields
  have kept := claimed _ pool later rfl reached (reachable_of_run last) (text "r1") run stored
    finished
  simp [delivered, kept, isDelivered] at undelivered

end Sendplane.Probe
