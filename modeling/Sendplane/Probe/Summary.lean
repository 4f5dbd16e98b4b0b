import Mathlib.Data.List.Induction
import Sendplane.Probe.Run

namespace Sendplane.Probe

open Data Store Memstore

variable (r : Runner) (senderID : Text) (runs : List ProbeRun) (now : Time)

def updateSenderHealth : Proc (Option Err) :=
  match summarize r runs with
  | none => return none
  | some (status, reason) => setSenderHealth r senderID status reason now 3

theorem refreshSenderHealth_eq :
    refreshSenderHealth r senderID now = (runsOf r senderID >>= fun
      | .error e => return some e
      | .ok runs => updateSenderHealth r senderID runs now) := rfl

variable {r senderID runs now} {mailboxID : Text} {run other : ProbeRun}

/-- A finished run of the mailbox. -/
structure Finished (runs : List ProbeRun) (mailboxID : Text) (run : ProbeRun) : Prop where
  listed : run ∈ runs
  finished : run.pending = false
  mailbox : run.mailboxID = mailboxID

/-- Identifiers grow with time. -/
def Newest (runs : List ProbeRun) (mailboxID : Text) (run : ProbeRun) : Prop :=
  Finished runs mailboxID run ∧ ∀ other, Finished runs mailboxID other → (compare other.id run.id).isLE

theorem finished_snoc : Finished (runs ++ [run]) mailboxID other ↔
    Finished runs mailboxID other ∨ (other = run ∧ run.pending = false ∧ run.mailboxID = mailboxID) := by
  constructor
  · rintro ⟨listed, finished, mailbox⟩
    rcases List.mem_append.mp listed with earlier | last
    · exact .inl ⟨earlier, finished, mailbox⟩
    · obtain rfl := List.mem_singleton.mp last
      exact .inr ⟨rfl, finished, mailbox⟩
  · rintro (earlier | ⟨rfl, finished, mailbox⟩)
    · exact ⟨by simp [earlier.listed], earlier.finished, earlier.mailbox⟩
    · exact ⟨by simp, finished, mailbox⟩

theorem latestRuns_snoc :
    latestRuns (runs ++ [run]) = if run.pending then latestRuns runs
      else if (latestRuns runs)[run.mailboxID]?.all fun cur => compare run.id cur.id = .gt then
        (latestRuns runs).insert run.mailboxID run else latestRuns runs := by
  rw [latestRuns, List.foldl_append, ← latestRuns]
  simp only [List.foldl_cons]
  cases (latestRuns runs)[run.mailboxID]? with
  | none | some => simp

theorem latestRuns_spec (runs : List ProbeRun) (mailboxID : Text) :
    (latestRuns runs)[mailboxID]?.elim (∀ run, ¬ Finished runs mailboxID run) (Newest runs mailboxID) := by
  induction runs using List.reverseRecOn with
  | nil =>
      have empty : ∀ run, ¬ Finished [] mailboxID run := fun run finished => by simpa using finished.listed
      simpa [latestRuns] using empty
  | append_singleton runs run ih =>
      by_cases counts : run.pending = false ∧ run.mailboxID = mailboxID
      · obtain ⟨finished, rfl⟩ := counts
        have added : ∀ other, Finished (runs ++ [run]) run.mailboxID other ↔
            Finished runs run.mailboxID other ∨ other = run := by
          simp [finished_snoc, finished]
        rw [latestRuns_snoc]
        cases latest : (latestRuns runs)[run.mailboxID]? with
        | none =>
            rw [latest] at ih
            simp only [Option.elim_none] at ih
            simp [finished, Newest, added, ih]
        | some cur =>
            rw [latest] at ih
            obtain ⟨current, newest⟩ := ih
            by_cases newer : compare run.id cur.id = .gt
            · simp only [finished, newer, Option.all_some, decide_true, Bool.false_eq_true, ↓reduceIte, Table.get_insert_same,
                Option.elim_some, Newest, added]
              refine ⟨.inr trivial, ?_⟩
              rintro other (earlier | rfl)
              · exact Std.TransCmp.isLE_trans (newest other earlier) (by simp [Std.OrientedCmp.lt_of_gt newer])
              · simp
            · simp only [finished, newer, Option.all_some, decide_false, Bool.false_eq_true, ↓reduceIte, latest,
                Option.elim_some, Newest, added]
              refine ⟨.inl current, ?_⟩
              rintro other (earlier | rfl)
              · exact newest other earlier
              · exact Ordering.ne_gt_iff_isLE.mp newer
      · have same : (latestRuns (runs ++ [run]))[mailboxID]? = (latestRuns runs)[mailboxID]? := by
          rw [latestRuns_snoc]
          split
          · rfl
          case isFalse finished =>
            have elsewhere : run.mailboxID ≠ mailboxID := fun same => counts ⟨by simpa using finished, same⟩
            split
            · exact Table.get_insert_ne elsewhere
            · rfl
        have kept : ∀ other, Finished (runs ++ [run]) mailboxID other ↔ Finished runs mailboxID other := by
          simp [finished_snoc, counts]
        have newest : Newest (runs ++ [run]) mailboxID = Newest runs mailboxID := by
          funext other
          simp [Newest, kept]
        simpa [same, newest, kept] using ih

/-- Runs have identifiers of their own. -/
def Distinct (runs : List ProbeRun) : Prop :=
  ∀ first ∈ runs, ∀ second ∈ runs, first.id = second.id → first = second

theorem latestRuns_iff (distinct : Distinct runs) : (latestRuns runs)[mailboxID]? = some run ↔ Newest runs mailboxID run := by
  have spec := latestRuns_spec runs mailboxID
  cases latest : (latestRuns runs)[mailboxID]? with
  | none =>
      rw [latest] at spec
      simp only [reduceCtorEq, false_iff]
      exact fun newest => spec run newest.1
  | some cur =>
      rw [latest] at spec
      constructor
      · rintro ⟨⟩
        exact spec
      · intro newest
        have same : compare cur.id run.id = .eq :=
          Std.OrientedCmp.isLE_antisymm (newest.2 cur spec.1) (spec.2 run newest.1)
        rw [distinct cur spec.1.listed run newest.1.listed (Std.LawfulEqOrd.eq_of_compare same)]

theorem rank_worst_le : (worst first second).rank ≤ bound ↔ first.rank ≤ bound ∧ second.rank ≤ bound := by
  unfold worst
  split <;> omega

theorem rank_foldl_worst_le (newest : List ProbeRun) (status : HealthStatus) :
    (newest.foldl (fun status run => worst status run.status) status).rank ≤ bound ↔
      status.rank ≤ bound ∧ ∀ run ∈ newest, run.status.rank ≤ bound := by
  induction newest generalizing status with
  | nil => simp
  | cons run rest ih => simp [ih, rank_worst_le, and_assoc]

theorem green_iff_rank {status : HealthStatus} :
    status = .green ↔ status.rank ≤ HealthStatus.green.rank ∧ ¬ status.rank ≤ 0 := by
  cases status <;> simp [HealthStatus.rank]

theorem summarize_status (order : ∀ ids, (r.mapOrder ids).Perm ids) (distinct : Distinct runs)
    (some : Newest runs mailboxID run) :
    ∃ status reason, summarize r runs = .some (status, reason) ∧
      ∀ bound, status.rank ≤ bound ↔ ∀ id newest, Newest runs id newest → newest.status.rank ≤ bound := by
  have found := (latestRuns_iff distinct).mpr some
  have full : (latestRuns runs).isEmpty = false := by
    rw [Std.ExtTreeMap.isEmpty_eq_false_iff]
    intro empty
    simp [empty] at found
  refine ⟨_, _, by rw [summarize, full, if_neg (by simp)], fun bound => ?_⟩
  rw [rank_foldl_worst_le]
  simp only [HealthStatus.rank, Nat.zero_le, true_and, List.mem_filterMap, forall_exists_index, and_imp]
  constructor
  · intro all id newest isNewest
    have stored := (latestRuns_iff distinct).mpr isNewest
    refine all newest id ((order _).mem_iff.mpr ?_) stored
    rw [Std.ExtTreeMap.mem_keys, Std.ExtTreeMap.mem_iff_isSome_getElem?, stored, Option.isSome_some]
  · intro all newest id _ stored
    exact all id newest ((latestRuns_iff distinct).mp stored)

variable {s : TenantStore} {snd : Sender}

theorem setSenderHealth_exec (stored : s.senders[senderID]? = some snd) (filed : snd.id = senderID) :
    ((setSenderHealth r senderID status reason now (attempts + 1)).exec s).2.senders[senderID]?.map Sender.health =
      some status := by
  subst filed
  unfold setSenderHealth
  simp only [Prog.query_bind, Prog.exec_call, TenantStore.senderGet, Memstore.find, stored, Prog.invoke_bind,
    TenantStore.senderUpdate, update, senderMeta, versionOf, Option.map_some, ne_eq, not_true_eq_false, ↓reduceIte]
  split
  · simp [updatedRow, setField]
  · simp [updatedRow, setField, TenantStore.outboxEnqueue]

/-- A mailbox that is still there and enabled. -/
def Enabled (s : TenantStore) (mailboxID : Text) : Prop :=
  ∃ box, s.probeMailboxes[mailboxID]? = some box ∧ box.enabled = true

/-- The mailboxes that are probed all say green: the sender does exactly if the
other IDs in its history do not say worse. -/
theorem health_green_iff (r : Runner) (order : ∀ ids, (r.mapOrder ids).Perm ids) (s : TenantStore) (snd : Sender)
    (stored : s.senders[snd.id]? = some snd) (runs : List ProbeRun) (distinct : Distinct runs) (now : Time)
    (enabled : ∃ mailboxID, Enabled s mailboxID)
    (green : ∀ mailboxID, Enabled s mailboxID → ∃ run, Newest runs mailboxID run ∧ run.status = .green) :
    ((updateSenderHealth r snd.id runs now).exec s).2.senders[snd.id]?.map Sender.health = some .green ↔
      ∀ mailboxID run, ¬ Enabled s mailboxID → Newest runs mailboxID run →
        run.status.rank ≤ HealthStatus.green.rank := by
  obtain ⟨probed, isProbed⟩ := enabled
  obtain ⟨seen, newest, isGreen⟩ := green probed isProbed
  obtain ⟨status, reason, summary, ranked⟩ := summarize_status order distinct newest
  have notUnknown : ¬ status.rank ≤ 0 := by
    intro none
    have zero := (ranked 0).mp none probed seen newest
    simp [isGreen, HealthStatus.rank] at zero
  rw [updateSenderHealth, summary, setSenderHealth_exec stored rfl, Option.some.injEq, green_iff_rank, ranked,
    and_iff_left notUnknown]
  constructor
  · intro all mailboxID run _ newest
    exact all mailboxID run newest
  · intro others mailboxID run newest
    by_cases isEnabled : Enabled s mailboxID
    · obtain ⟨same, isNewest, isGreen⟩ := green mailboxID isEnabled
      have unique := (latestRuns_iff distinct).mpr newest
      rw [(latestRuns_iff distinct).mpr isNewest] at unique
      cases unique
      rw [isGreen]
    · exact others mailboxID run isEnabled newest

def probedSender : Sender := { id := text "s1" }

def probedStore : TenantStore where
  senders := (∅ : Table Text Sender).insert (text "s1") probedSender
  probeMailboxes := (∅ : Table Text ProbeMailbox).insert (text "m1") { id := text "m1", enabled := true }

def greenRun : ProbeRun where
  id := text "r2"
  mailboxID := text "m1"
  status := .green

/-- A run that looked at DNS only, before the mailbox was added. -/
def dnsRun : ProbeRun where
  id := text "r1"
  status := .yellow

def plainRunner : Runner where
  verdict _ := (.green, [])
  newID _ := text "e1"

theorem dns_run_outlives_fallback :
    ((updateSenderHealth plainRunner (text "s1") [dnsRun, greenRun] 0).exec probedStore).2.senders[text "s1"]?.map
      Sender.health = some .yellow := by
  decide +kernel

/-- The probed mailbox was red before it was green, and a mailbox that is gone
was green. -/
def mixedRuns : List ProbeRun :=
  [{ id := text "r1", mailboxID := text "m1", status := .red }, greenRun,
    { id := text "r3", mailboxID := text "m0", status := .green }]

theorem health_green_again :
    ((updateSenderHealth plainRunner probedSender.id mixedRuns 0).exec probedStore).2.senders[probedSender.id]?.map
      Sender.health = some .green := by
  have distinct : Distinct mixedRuns := by
    unfold Distinct
    decide +kernel
  have newest : Newest mixedRuns (text "m1") greenRun := (latestRuns_iff distinct).mp (by decide +kernel)
  have enabled : Enabled probedStore (text "m1") := ⟨_, rfl, rfl⟩
  refine (health_green_iff plainRunner (fun _ => .refl _) probedStore probedSender rfl mixedRuns distinct 0
    ⟨_, enabled⟩ ?_).mpr ?_
  · rintro mailboxID ⟨box, stored, -⟩
    by_cases probed : mailboxID = text "m1"
    · exact ⟨greenRun, probed ▸ newest, rfl⟩
    · rw [probedStore, Table.get_insert_ne (Ne.symm probed)] at stored
      simp at stored
  · rintro mailboxID run disabled ⟨⟨listed, _, rfl⟩, _⟩
    simp only [mixedRuns, List.mem_cons, List.not_mem_nil, or_false] at listed
    rcases listed with rfl | rfl | rfl
    · exact absurd enabled disabled
    · exact le_rfl
    · exact le_rfl

end Sendplane.Probe
