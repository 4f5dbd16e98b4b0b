import Sendplane.Data.Faults
import Sendplane.Ingest.Ingest
import Sendplane.Memstore.Recipients

namespace Sendplane.Ingest

open Data Store Memstore Memstore.DeliveryRepo Control Prog Roster List

theorem splitCounts_eq_size (repo : DeliveryRepo) :
    (splitCounts fun status => repo.countByStatus campaignID status).1 = repo.campaignSize campaignID := by
  simp only [splitCounts, allStatuses, map_cons, DeliveryRepo.countByStatus, campaignSize, Table.keysWhere, length_map,
    ← countP_eq_length_filter]
  induction repo.deliveries.toList with
  | nil => rfl
  | cons entry rest ih =>
      simp only [countP_cons]
      by_cases mine : entry.2.campaignID = campaignID
      · cases entry.2.status <;> simp at ih ⊢ <;> omega
      · simp [mine] at ih ⊢
        omega

def incoming (camp : Campaign) (now : Time) (lines : List Line) : List Delivery :=
  lines.filterMap fun
    | .recipient d => some (fill camp now d)
    | _ => none

def Line.isBlank : Line → Bool
  | .blank => true
  | _ => false

def Line.isUnreadable : Line → Bool
  | .unreadable _ => true
  | _ => false

/-- Where a call stands between two lines, with the rows that are still to come. -/
structure Ready (ing : Ingester) (camp : Campaign) (existing : Int) (s : TenantStore) (run : Run)
    (later : List Delivery) : Prop where
  named : camp.id ≠ []
  indexed : s.Indexed
  fresh : s.FreshIDs (run.batch ++ later)
  rows : Rows camp.id (run.batch ++ later)
  seen : run.seen = (run.batch.map Delivery.emailNorm).reverse
  counted : existing + run.res.accepted = s.campaignSize camp.id
  room : s.campaignSize camp.id + run.batch.length ≤ ing.maxRecipients

def Frame (s after : TenantStore) : Prop :=
  after.campaigns = s.campaigns ∧ after.chunks = s.chunks

def Summary.lines (res : Summary) : Int :=
  res.accepted + res.duplicates + res.invalid

variable {ing : Ingester} {camp : Campaign} {existing : Int} {s after : TenantStore} {run next : Run}
  {later : List Delivery} {failure : Option Err} {trace : Prog.Trace Tag}

theorem not_failed_left (clean : ¬Failed (first ++ second)) : ¬Failed first :=
  fun failed => clean (failed_append.mpr (.inl failed))

theorem not_failed_right (clean : ¬Failed (first ++ second)) : ¬Failed second :=
  fun failed => clean (failed_append.mpr (.inr failed))

/-- What a flush has done when it returns no error. -/
structure Flushed (ing : Ingester) (camp : Campaign) (existing : Int) (s : TenantStore) (run : Run)
    (later : List Delivery) (next : Run) (after : TenantStore) : Prop where
  admits : Admits camp.id s.toDeliveryRepo after.toDeliveryRepo (run.batch.map rowOf)
  frame : Frame s after
  ready : Ready ing camp existing after next later
  empty : next.batch = []
  lines : next.res.lines = run.res.lines + run.batch.length

theorem insertBatch_cases :
    ((∃ e, s.deliveryInsertBatch (fun _ => []) ds = (.error e, s)) ∧ ∃ row ∈ ds.map rowOf, row.1 = []) ∨
      s.deliveryInsertBatch (fun _ => []) ds =
        (.ok (insertRows (truncateTime s.clock) (fun _ => []) 0 ds s.toDeliveryRepo).1,
          { s with toDeliveryRepo := (insertRows (truncateTime s.clock) (fun _ => []) 0 ds s.toDeliveryRepo).2 }) := by
  unfold TenantStore.deliveryInsertBatch DeliveryRepo.insertBatch
  cases found : ds.findIdx? fun d => d.emailNorm = [] with
  | none => exact .inr rfl
  | some index =>
      refine .inl ⟨⟨_, rfl⟩, ?_⟩
      obtain ⟨inside, bad, _⟩ := findIdx?_eq_some_iff_getElem.mp found
      exact ⟨_, mem_map_of_mem (getElem_mem inside), by simpa [rowOf] using bad⟩

theorem flush_ends (ready : Ready ing camp existing s run later)
    (ends : (flush run).Ends fault s trace (next, failure) after) :
    (failure = none ∧ Flushed ing camp existing s run later next after) ∨
      (failure ≠ none ∧ after = s ∧ (¬Failed trace → ∃ row ∈ run.batch.map rowOf, row.1 = [])) := by
  unfold flush at ends
  by_cases empty : run.batch = []
  · rw [if_pos empty] at ends
    obtain ⟨_, same, rfl⟩ := ends
    cases same
    refine .inl ⟨rfl, ?_, ⟨rfl, rfl⟩, ready, empty, ?_⟩
    · rw [empty]
      exact Admits.refl _ _
    · simp [empty]
  · rw [if_neg empty] at ends
    obtain ⟨_, ⟨rfl, answered⟩ | ⟨rfl, e, _, failed⟩⟩ := ends_invoke ends
    · rcases insertBatch_cases with ⟨⟨e, refused⟩, bad⟩ | inserted
      · rw [refused] at answered
        obtain ⟨_, same, rfl⟩ := answered
        cases same
        exact .inr ⟨nofun, rfl, fun _ => bad⟩
      · rw [inserted] at answered
        obtain ⟨_, same, rfl⟩ := answered
        cases same
        have rows : Rows camp.id run.batch := fun d member => ready.rows d (mem_append_left _ member)
        obtain ⟨admits, count, indexed, unused⟩ := insertRows_admits 0 ready.named ready.indexed ready.fresh rows
        have few := added_le_length (s.recipients camp.id) (run.batch.map rowOf)
        have size := admits.size
        have counted := ready.counted
        have room := ready.room
        rw [length_map] at few
        refine .inl ⟨rfl, admits, ⟨rfl, rfl⟩, ?_, rfl, ?_⟩
        · refine ⟨ready.named, indexed, unused, ?_, rfl, ?_, ?_⟩
          · exact fun d member => ready.rows d (mem_append_right _ member)
          · dsimp only
            omega
          · simp only [length_nil]
            omega
        · simp only [Summary.lines]
          omega
    · obtain ⟨_, same, rfl⟩ := failed
      cases same
      refine .inr ⟨nofun, rfl, ?_⟩
      intro clean
      exact absurd (failed_cons.mpr (.inl rfl)) clean

/-- What a call that goes on has done with the rows that were in its hands. -/
structure Moved (ing : Ingester) (camp : Campaign) (existing : Int) (s : TenantStore) (run : Run)
    (pending later : List Delivery) (next : Run) (after : TenantStore) : Prop where
  admits : ∃ done, done ++ next.batch.map rowOf = pending.map rowOf ∧
    Admits camp.id s.toDeliveryRepo after.toDeliveryRepo done
  frame : Frame s after
  ready : Ready ing camp existing after next later
  lines : next.res.lines + next.batch.length = run.res.lines + pending.length

/-- What a call that stops has done with them.  If it was left alone, a row is
malformed or there is no room. -/
structure Stopped (ing : Ingester) (camp : Campaign) (s : TenantStore) (pending : List Delivery)
    (alone : Prop) (after : TenantStore) : Prop where
  admits : ∃ done, done <+: pending.map rowOf ∧ Admits camp.id s.toDeliveryRepo after.toDeliveryRepo done
  frame : Frame s after
  indexed : after.Indexed
  room : after.campaignSize camp.id ≤ ing.maxRecipients
  blame : alone → (∃ row ∈ pending.map rowOf, row.1 = []) ∨
    ing.maxRecipients ≤ s.campaignSize camp.id + Roster.added (s.recipients camp.id) (pending.map rowOf)

variable {pending : List Delivery} {alone : Prop}

theorem Stopped.weaken {more : Prop} (stopped : Stopped ing camp s pending alone after) (implied : more → alone) :
    Stopped ing camp s pending more after :=
  ⟨stopped.admits, stopped.frame, stopped.indexed, stopped.room, fun holds => stopped.blame (implied holds)⟩

theorem Flushed.moved (flushed : Flushed ing camp existing s run later next after) :
    Moved ing camp existing s run run.batch later next after := by
  refine ⟨⟨run.batch.map rowOf, ?_, flushed.admits⟩, flushed.frame, flushed.ready, ?_⟩
  · simp [flushed.empty]
  · simpa [flushed.empty] using flushed.lines

theorem Ready.stopped (ready : Ready ing camp existing s run later)
    (blame : alone → (∃ row ∈ pending.map rowOf, row.1 = []) ∨
      ing.maxRecipients ≤ s.campaignSize camp.id + added (s.recipients camp.id) (pending.map rowOf)) :
    Stopped ing camp s pending alone s := by
  have room := ready.room
  exact ⟨⟨[], nil_prefix, Admits.refl _ _⟩, ⟨rfl, rfl⟩, ready.indexed, by omega, blame⟩

theorem Moved.stopped (moved : Moved ing camp existing s run pending later next after)
    (stopped : Stopped ing camp after (next.batch ++ more) alone final) :
    Stopped ing camp s (pending ++ more) alone final := by
  obtain ⟨done, parts, first⟩ := moved.admits
  obtain ⟨rest, part, second⟩ := stopped.admits
  have whole : (pending ++ more).map rowOf = done ++ (next.batch ++ more).map rowOf := by
    simp [← parts]
  refine ⟨⟨done ++ rest, ?_, first.trans second⟩, ?_, stopped.indexed, stopped.room, ?_⟩
  · rw [whole]
    exact (prefix_append_right_inj done).mpr part
  · exact ⟨stopped.frame.1.trans moved.frame.1, stopped.frame.2.trans moved.frame.2⟩
  · intro holds
    rcases stopped.blame holds with ⟨row, member, bad⟩ | full
    · exact .inl ⟨row, by rw [whole]; exact mem_append_right _ member, bad⟩
    · right
      rw [whole, added_append, ← first.recipients]
      have size := first.size
      omega

theorem Stopped.extend (stopped : Stopped ing camp s pending alone after) (more : List Delivery) :
    Stopped ing camp s (pending ++ more) alone after := by
  obtain ⟨done, part, admits⟩ := stopped.admits
  refine ⟨⟨done, ?_, admits⟩, stopped.frame, stopped.indexed, stopped.room, ?_⟩
  · rw [map_append]
    exact part.trans (prefix_append _ _)
  · intro holds
    rw [map_append]
    rcases stopped.blame holds with ⟨row, member, bad⟩ | full
    · exact .inl ⟨row, mem_append_left _ member, bad⟩
    · rw [added_append]
      exact .inr (by omega)

theorem Moved.flushed (moved : Moved ing camp existing s run pending later next after)
    (flushed : Flushed ing camp existing after next later last final) :
    Moved ing camp existing s run pending later last final := by
  obtain ⟨done, parts, first⟩ := moved.admits
  refine ⟨⟨done ++ next.batch.map rowOf, ?_, first.trans flushed.admits⟩, ?_, flushed.ready, ?_⟩
  · simp [flushed.empty, parts]
  · exact ⟨flushed.frame.1.trans moved.frame.1, flushed.frame.2.trans moved.frame.2⟩
  · have before := moved.lines
    have now := flushed.lines
    simp only [flushed.empty, length_nil]
    omega

theorem makeRoom_ends (ready : Ready ing camp existing s run later)
    (ends : (makeRoom ing camp existing run).Ends fault s trace (next, failure) after) :
    (failure = none ∧ Moved ing camp existing s run run.batch later next after ∧
        after.campaignSize camp.id + next.batch.length < ing.maxRecipients) ∨
      (failure ≠ none ∧ Stopped ing camp s run.batch (¬Failed trace) after) := by
  have counted := ready.counted
  unfold makeRoom at ends
  by_cases tight : existing + run.res.accepted + run.batch.length ≥ ing.maxRecipients
  · rw [if_pos tight] at ends
    obtain ⟨first, second, ⟨flushed, stop⟩, middle, rfl, started, ends⟩ := ends_bind ends
    rcases flush_ends ready started with ⟨rfl, done⟩ | ⟨failed, rfl, bad⟩
    · have counted := done.ready.counted
      by_cases full : existing + flushed.res.accepted ≥ ing.maxRecipients
      · simp only [full] at ends
        obtain ⟨_, same, rfl⟩ := ends
        cases same
        refine .inr ⟨nofun, ⟨_, prefix_refl _, done.admits⟩, done.frame, done.ready.indexed, ?_, ?_⟩
        · have room := done.ready.room
          omega
        · intro _
          have size := done.admits.size
          exact .inr (by omega)
      · simp only [full] at ends
        obtain ⟨_, same, rfl⟩ := ends
        cases same
        refine .inl ⟨rfl, done.moved, ?_⟩
        rw [done.empty, length_nil]
        omega
    · obtain ⟨e, rfl⟩ := Option.ne_none_iff_exists'.mp failed
      obtain ⟨rfl, same, rfl⟩ := ends
      cases same
      refine .inr ⟨nofun, ready.stopped ?_⟩
      intro clean
      exact .inl (bad (not_failed_left clean))
  · rw [if_neg tight] at ends
    obtain ⟨_, same, rfl⟩ := ends
    cases same
    refine .inl ⟨rfl, ⟨⟨[], rfl, Admits.refl _ _⟩, ⟨rfl, rfl⟩, ready, rfl⟩, by omega⟩

theorem appendRow_ends (ready : Ready ing camp existing s run (d :: later))
    (ends : (appendRow ing camp existing run d).Ends fault s trace (next, failure) after) :
    (failure = none ∧ Moved ing camp existing s run (run.batch ++ [d]) later next after) ∨
      (failure ≠ none ∧ Stopped ing camp s (run.batch ++ [d]) (¬Failed trace) after) := by
  obtain ⟨first, second, ⟨roomy, stop⟩, middle, rfl, started, ends⟩ := ends_bind ends
  rcases makeRoom_ends ready started with ⟨rfl, moved, room⟩ | ⟨failed, stopped⟩
  · let added : Run := { roomy with batch := roomy.batch ++ [d], seen := d.emailNorm :: roomy.seen }
    have before := moved.ready
    have ready : Ready ing camp existing middle added later := by
      refine ⟨before.named, before.indexed, ?_, ?_, ?_, before.counted, ?_⟩
      · simpa [added] using before.fresh
      · simpa [added] using before.rows
      · simp [added, before.seen]
      · simp only [added, length_append, length_singleton]
        omega
    have appended : Moved ing camp existing s run (run.batch ++ [d]) later added middle := by
      obtain ⟨done, parts, admits⟩ := moved.admits
      refine ⟨⟨done, ?_, admits⟩, moved.frame, ready, ?_⟩
      · simp [added, ← parts]
      · have lines := moved.lines
        simp only [added, length_append]
        omega
    by_cases full : added.batch.length ≥ ing.batchSize
    · simp only [added] at full
      simp only [full] at ends
      rcases flush_ends ready ends with ⟨rfl, flushed⟩ | ⟨failed, rfl, bad⟩
      · exact .inl ⟨rfl, appended.flushed flushed⟩
      · have stopped : Stopped ing camp after (added.batch ++ []) (¬Failed second) after :=
          ready.stopped fun clean => .inl (by simpa using bad clean)
        have whole : Stopped ing camp s _ (¬Failed (first ++ second)) after :=
          (appended.stopped stopped).weaken not_failed_right
        exact .inr ⟨failed, by simpa using whole⟩
    · simp only [added] at full
      simp only [full] at ends
      obtain ⟨_, same, rfl⟩ := ends
      cases same
      exact .inl ⟨rfl, appended⟩
  · obtain ⟨e, rfl⟩ := Option.ne_none_iff_exists'.mp failed
    obtain ⟨rfl, same, rfl⟩ := ends
    cases same
    exact .inr ⟨nofun, (stopped.extend [d]).weaken not_failed_left⟩

/-- The lines that count, which are all but the blank ones. -/
def counting (lines : List Line) : Nat :=
  lines.countP fun line => !line.isBlank

/-- What the lines have admitted when the stream ends. -/
structure Streamed (ing : Ingester) (camp : Campaign) (existing : Int) (s : TenantStore) (run : Run)
    (pending : List Delivery) (lines : List Line) (next : Run) (after : TenantStore) : Prop where
  admits : Admits camp.id s.toDeliveryRepo after.toDeliveryRepo (pending.map rowOf)
  frame : Frame s after
  indexed : after.Indexed
  counted : existing + next.res.accepted = after.campaignSize camp.id
  room : after.campaignSize camp.id ≤ ing.maxRecipients
  amount : next.res.lines = run.res.lines + run.batch.length + counting lines
  readable : ∀ line ∈ lines, line.isUnreadable = false

def Alone (trace : Prog.Trace Tag) (lines : List Line) : Prop :=
  ¬Prog.Failed trace ∧ ∀ line ∈ lines, line.isUnreadable = false

theorem counting_cons (counts : line.isBlank = false) : counting (line :: rest) = counting rest + 1 := by
  simp [counting, counts]

theorem Run.reject_lines : (run.reject ing lineNo email reason).res.lines = run.res.lines + 1 := by
  simp only [Run.reject, Summary.lines]
  omega

theorem Ready.reject (ready : Ready ing camp existing s run later) :
    Ready ing camp existing s (run.reject ing lineNo email reason) later :=
  ⟨ready.named, ready.indexed, ready.fresh, ready.rows, ready.seen, ready.counted, ready.room⟩

theorem Ready.repeat (ready : Ready ing camp existing s run later) (duplicates : Int) :
    Ready ing camp existing s { run with res := { run.res with duplicates } } later :=
  ⟨ready.named, ready.indexed, ready.fresh, ready.rows, ready.seen, ready.counted, ready.room⟩

theorem Ready.skip (ready : Ready ing camp existing s run (d :: later)) : Ready ing camp existing s run later := by
  refine ⟨ready.named, ready.indexed, ⟨?_, ?_⟩, ?_, ready.seen, ready.counted, ready.room⟩
  · have sublist : ((run.batch ++ later).map Delivery.id).Sublist ((run.batch ++ d :: later).map Delivery.id) :=
      ((sublist_cons_self d later).append_left run.batch).map _
    exact ready.fresh.1.sublist sublist
  · intro other member
    apply ready.fresh.2 other
    simp only [mem_append] at member ⊢
    tauto
  · intro other member
    apply ready.rows other
    simp only [mem_append] at member ⊢
    tauto

theorem Alone.tail (alone : Alone ((tag, failed) :: trace) (line :: rest)) : Alone trace rest :=
  ⟨fun failed => alone.1 (failed_cons.mpr (.inr failed)), fun line member => alone.2 line (mem_cons_of_mem _ member)⟩

theorem Stopped.repeated (stopped : Stopped ing camp s (batch ++ more) alone after)
    (repeated : (rowOf d).1 ∈ (batch.map rowOf).map Prod.fst) :
    Stopped ing camp s (batch ++ d :: more) alone after := by
  obtain ⟨done, part, admits⟩ := stopped.admits
  rw [map_append] at part
  refine ⟨?_, stopped.frame, stopped.indexed, stopped.room, ?_⟩
  · rw [map_append]
    rcases prefix_or_prefix_of_prefix part (prefix_append (batch.map rowOf) (more.map rowOf)) with early | ⟨rest, rfl⟩
    · exact ⟨done, early.trans (prefix_append _ _), admits⟩
    · refine ⟨batch.map rowOf ++ rowOf d :: rest, ?_, admits.repeated repeated⟩
      rw [prefix_append_right_inj] at part ⊢
      exact cons_prefix_cons.mpr ⟨rfl, part⟩
  · intro holds
    rw [map_append, map_cons, added_repeated repeated]
    rcases stopped.blame holds with ⟨row, member, bad⟩ | full
    · refine .inl ⟨row, ?_, bad⟩
      simp only [map_append, mem_append] at member ⊢
      tauto
    · rw [map_append] at full
      exact .inr full

theorem Streamed.repeated (streamed : Streamed ing camp existing s run (batch ++ more) lines next after)
    (repeated : (rowOf d).1 ∈ (batch.map rowOf).map Prod.fst) :
    Streamed ing camp existing s run (batch ++ d :: more) lines next after := by
  have admits := streamed.admits
  rw [map_append] at admits
  refine ⟨?_, streamed.frame, streamed.indexed, streamed.counted, streamed.room, streamed.amount, streamed.readable⟩
  rw [map_append]
  exact admits.repeated repeated

theorem Streamed.count (before : Run) (streamed : Streamed ing camp existing s run pending rest next after)
    (batch : run.batch = before.batch) (counted : run.res.lines = before.res.lines + 1)
    (counts : line.isBlank = false) (readable : line.isUnreadable = false) :
    Streamed ing camp existing s before pending (line :: rest) next after := by
  refine ⟨streamed.admits, streamed.frame, streamed.indexed, streamed.counted, streamed.room, ?_,
    forall_mem_cons.mpr ⟨readable, streamed.readable⟩⟩
  rw [streamed.amount, batch, counting_cons counts]
  omega

theorem Moved.streamed (moved : Moved ing camp existing s run pending later next after)
    (streamed : Streamed ing camp existing after next (next.batch ++ more) rest last final)
    (amount : pending.length = run.batch.length + 1) (counts : line.isBlank = false)
    (readable : line.isUnreadable = false) :
    Streamed ing camp existing s run (pending ++ more) (line :: rest) last final := by
  obtain ⟨done, parts, first⟩ := moved.admits
  have whole : (pending ++ more).map rowOf = done ++ (next.batch ++ more).map rowOf := by
    simp [← parts]
  refine ⟨?_, ?_, streamed.indexed, streamed.counted, streamed.room, ?_,
    forall_mem_cons.mpr ⟨readable, streamed.readable⟩⟩
  · rw [whole]
    exact first.trans streamed.admits
  · exact ⟨streamed.frame.1.trans moved.frame.1, streamed.frame.2.trans moved.frame.2⟩
  · have before := moved.lines
    rw [streamed.amount, counting_cons counts]
    omega

theorem streamLines_ends (ready : Ready ing camp existing s run (incoming camp now lines))
    (ends : (streamLines ing camp now existing lineNo lines run).Ends fault s trace (next, failure) after) :
    (failure = none ∧ Streamed ing camp existing s run (run.batch ++ incoming camp now lines) lines next after) ∨
      (failure ≠ none ∧ Stopped ing camp s (run.batch ++ incoming camp now lines) (Alone trace lines) after) := by
  induction lines generalizing s run lineNo trace with
  | nil =>
      obtain ⟨later, ⟨rfl, answered⟩ | ⟨rfl, e, _, failed⟩⟩ := ends_query ends
      · rcases flush_ends ready answered with ⟨rfl, flushed⟩ | ⟨failed, rfl, bad⟩
        · refine .inl ⟨rfl, ?_, flushed.frame, flushed.ready.indexed, flushed.ready.counted, ?_, ?_, forall_mem_nil _⟩
          · simpa [incoming] using flushed.admits
          · have room := flushed.ready.room
            omega
          · simpa [counting] using flushed.lines
        · refine .inr ⟨failed, ready.stopped ?_⟩
          intro alone
          have clean : ¬Failed later := fun failed => alone.1 (failed_cons.mpr (.inr failed))
          exact .inl (by simpa [incoming] using bad clean)
      · obtain ⟨_, same, rfl⟩ := failed
        cases same
        refine .inr ⟨nofun, ready.stopped ?_⟩
        intro alone
        exact absurd (failed_cons.mpr (.inl rfl)) alone.1
  | cons line rest ih =>
      obtain ⟨later, ⟨rfl, answered⟩ | ⟨rfl, e, _, failed⟩⟩ := ends_query ends
      · cases line with
        | unreadable e =>
            obtain ⟨_, same, rfl⟩ := answered
            cases same
            refine .inr ⟨nofun, ready.stopped ?_⟩
            intro alone
            exact absurd (alone.2 _ mem_cons_self) nofun
        | tooLong | rejected =>
            rcases ih ready.reject answered with ⟨rfl, streamed⟩ | ⟨failed, stopped⟩
            · exact .inl ⟨rfl, streamed.count run rfl Run.reject_lines rfl rfl⟩
            · exact .inr ⟨failed, stopped.weaken Alone.tail⟩
        | blank =>
            rcases ih ready answered with ⟨rfl, streamed⟩ | ⟨failed, stopped⟩
            · refine .inl ⟨rfl, streamed.admits, streamed.frame, streamed.indexed, streamed.counted, streamed.room, ?_,
                forall_mem_cons.mpr ⟨rfl, streamed.readable⟩⟩
              simpa [counting, Line.isBlank] using streamed.amount
            · exact .inr ⟨failed, stopped.weaken Alone.tail⟩
        | recipient d =>
            let row := fill camp now d
            by_cases dup : run.seen.contains row.emailNorm
            · have repeated : (rowOf row).1 ∈ (run.batch.map rowOf).map Prod.fst := by
                simpa [ready.seen, rowOf] using dup
              simp only [row] at dup
              simp only [dup] at answered
              rcases ih (ready.skip.repeat _) answered with ⟨rfl, streamed⟩ | ⟨failed, stopped⟩
              · have whole := streamed.repeated repeated
                exact .inl ⟨rfl, whole.count run rfl (by simp [Summary.lines]; omega) rfl rfl⟩
              · exact .inr ⟨failed, (stopped.repeated repeated).weaken Alone.tail⟩
            · simp only [row] at dup
              simp only [dup, Bool.false_eq_true] at answered
              obtain ⟨first, second, ⟨appended, stop⟩, middle, rfl, started, finished⟩ := ends_bind answered
              have whole : run.batch ++ incoming camp now (.recipient d :: rest) =
                  run.batch ++ [row] ++ incoming camp now rest := by
                simp [incoming, row]
              rw [whole]
              rcases appendRow_ends ready started with ⟨rfl, moved⟩ | ⟨failed, stopped⟩
              · rcases ih moved.ready finished with ⟨rfl, streamed⟩ | ⟨failed, stopped⟩
                · exact .inl ⟨rfl, moved.streamed streamed (by simp) rfl rfl⟩
                · refine .inr ⟨failed, (moved.stopped stopped).weaken ?_⟩
                  intro alone
                  exact ⟨not_failed_right alone.tail.1, alone.tail.2⟩
              · obtain ⟨e, rfl⟩ := Option.ne_none_iff_exists'.mp failed
                obtain ⟨rfl, same, rfl⟩ := finished
                cases same
                refine .inr ⟨nofun, (stopped.extend _).weaken ?_⟩
                intro alone
                exact not_failed_left alone.tail.1
      · obtain ⟨_, same, rfl⟩ := failed
        cases same
        refine .inr ⟨nofun, ready.stopped ?_⟩
        intro alone
        exact absurd (failed_cons.mpr (.inl rfl)) alone.1

end Sendplane.Ingest
