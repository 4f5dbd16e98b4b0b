import Sendplane.Ingest.Stream
import Sendplane.Memstore.Settings

namespace Sendplane.Ingest

open Data Store Memstore Memstore.DeliveryRepo Control Prog TenantStore

variable {ing : Ingester} {camp : Campaign} {now : Time} {existing : Int} {s after : TenantStore} {run : Run}
  {failure : Option Err} {trace : Prog.Trace Tag}

def chunkOf (campaignID chunkKey : Text) (s : TenantStore) : Option RecipientChunk :=
  s.chunks[TenantStore.chunkKey campaignID chunkKey]?

/-- The chunk is completed. -/
def Recorded (campaignID chunkKey : Text) (s : TenantStore) : Prop :=
  chunkKey ≠ [] ∧ ∃ c ∈ chunkOf campaignID chunkKey s, c.state = .completed

/-- A store that holds the campaign and has none of the new IDs. -/
structure Prepared (camp : Campaign) (now : Time) (s : TenantStore) (lines : List Line) : Prop where
  named : camp.id ≠ []
  stored : s.campaigns[camp.id]? = some camp
  indexed : s.Indexed
  fresh : s.FreshIDs (incoming camp now lines)
  ids : ∀ d ∈ incoming camp now lines, d.id ≠ []

def Editable (camp : Campaign) : Prop :=
  camp.status = .draft ∨ camp.status = .scheduled

/-- What a call that returns no error has done. -/
structure Completed (ing : Ingester) (camp : Campaign) (now : Time) (chunkKey : Text) (lines : List Line)
    (s : TenantStore) (res : Summary) (after : TenantStore) : Prop where
  editable : Editable camp
  unrecorded : ¬Recorded camp.id chunkKey s
  below : s.campaignSize camp.id < ing.maxRecipients
  admits : Admits camp.id s.toDeliveryRepo after.toDeliveryRepo ((incoming camp now lines).map rowOf)
  campaigns : after.campaigns = s.campaigns
  indexed : after.Indexed
  room : after.campaignSize camp.id ≤ ing.maxRecipients
  accepted : res.accepted = Roster.added (s.recipients camp.id) ((incoming camp now lines).map rowOf)
  amount : res.lines = counting lines
  readable : ∀ line ∈ lines, line.isUnreadable = false
  total : res.total = after.campaignSize camp.id
  chunk : chunkKey ≠ [] → ∃ c ∈ chunkOf camp.id chunkKey after, c.state = .completed ∧
    c.accepted = res.accepted ∧ c.duplicates = res.duplicates ∧ c.invalid = res.invalid

/-- A call that returns an error has admitted the first rows of its body. -/
structure Aborted (ing : Ingester) (camp : Campaign) (now : Time) (chunkKey : Text) (lines : List Line)
    (s : TenantStore) (trace : Prog.Trace Tag) (after : TenantStore) : Prop where
  admits : ∃ done, done <+: (incoming camp now lines).map rowOf ∧
    Admits camp.id s.toDeliveryRepo after.toDeliveryRepo done
  campaigns : after.campaigns = s.campaigns
  indexed : after.Indexed
  room : s.campaignSize camp.id ≤ ing.maxRecipients → after.campaignSize camp.id ≤ ing.maxRecipients
  chunk : ¬Recorded camp.id chunkKey s → ¬Recorded camp.id chunkKey after
  blame : Alone trace lines → Editable camp → ¬Recorded camp.id chunkKey s →
    (∃ row ∈ (incoming camp now lines).map rowOf, row.1 = []) ∨
    ing.maxRecipients ≤ s.campaignSize camp.id +
      Roster.added (s.recipients camp.id) ((incoming camp now lines).map rowOf)
  replay : Recorded camp.id chunkKey s → after = s ∧ (Editable camp → Prog.Failed trace)

variable {campaignID : Text}

theorem count_ends (ends : (count campaignID).Ends fault s trace reply after) :
    after = s ∧ (reply = .ok (s.campaignSize campaignID : Int) ∨ (Failed trace ∧ ∃ e, reply = .error e)) := by
  obtain ⟨later, ⟨rfl, answered⟩ | ⟨rfl, e, _, failed⟩⟩ := ends_query ends
  · obtain ⟨_, rfl, rfl⟩ := answered
    refine ⟨rfl, .inl ?_⟩
    rw [← splitCounts_eq_size]
  · obtain ⟨_, rfl, rfl⟩ := failed
    exact ⟨rfl, .inr ⟨failed_cons.mpr (.inl rfl), e, rfl⟩⟩

theorem putChunk_ends (named : c.campaignID ≠ []) (keyed : c.key ≠ [])
    (ends : (putChunk c).Ends fault s trace reply after) :
    (reply = .ok () ∧ ∃ stored : RecipientChunk, after = { s with
        chunks := s.chunks.insert (chunkKey c.campaignID c.key) stored } ∧
        stored.state = c.state ∧ stored.accepted = c.accepted ∧ stored.duplicates = c.duplicates ∧
        stored.invalid = c.invalid) ∨
      (Failed trace ∧ after = s ∧ ∃ e, reply = .error e) := by
  rcases ends_once ends with ⟨rfl, rfl⟩ | ⟨rfl, rfl, e, _, rfl⟩
  · left
    simp only [chunkPut, named, keyed, or_self, ↓reduceIte]
    exact ⟨trivial, _, rfl, rfl, rfl, rfl, rfl⟩
  · exact .inr ⟨failed_cons.mpr (.inl rfl), rfl, e, rfl⟩

structure Opened (campaignID chunkKey : Text) (s after : TenantStore) : Prop where
  repo : after.toDeliveryRepo = s.toDeliveryRepo
  campaigns : after.campaigns = s.campaigns
  before : ¬Recorded campaignID chunkKey s
  open_ : ¬Recorded campaignID chunkKey after

variable {chunkKey : Text}

theorem openChunk_ends (named : campaignID ≠ [])
    (ends : (openChunk campaignID chunkKey existing).Ends (fun _ => Outage) s trace reply after) :
    (reply = .ok none ∧ Opened campaignID chunkKey s after) ∨
      (∃ c ∈ chunkOf campaignID chunkKey s, chunkKey ≠ [] ∧ c.state = .completed ∧ after = s ∧
        reply = .ok (some { accepted := c.accepted, duplicates := c.duplicates, invalid := c.invalid, total := existing })) ∨
      (Failed trace ∧ after = s ∧ ∃ e, reply = .error e) := by
  unfold openChunk at ends
  by_cases keyless : chunkKey = []
  · rw [if_pos keyless] at ends
    obtain ⟨_, rfl, rfl⟩ := ends
    exact .inl ⟨rfl, rfl, rfl, fun recorded => recorded.1 keyless, fun recorded => recorded.1 keyless⟩
  rw [if_neg keyless] at ends
  have recordOpen : ∀ {trace : Trace Tag}, ¬Recorded campaignID chunkKey s →
      (openChunk.recordOpen campaignID chunkKey).Ends (fun _ => Outage) s trace reply after →
      (reply = .ok none ∧ Opened campaignID chunkKey s after) ∨ (Failed trace ∧ after = s ∧ ∃ e, reply = .error e) := by
    intro trace unrecorded ends
    obtain ⟨first, second, put, middle, rfl, started, finished⟩ := ends_bind ends
    rcases putChunk_ends named keyless started with ⟨rfl, stored, rfl, pending, _⟩ | ⟨failed, rfl, e, rfl⟩
    · obtain ⟨_, rfl, rfl⟩ := finished
      refine .inl ⟨rfl, rfl, rfl, unrecorded, ?_⟩
      rintro ⟨_, c, found, completed⟩
      rw [chunkOf, Table.get_insert_same] at found
      cases found
      rw [pending] at completed
      cases completed
    · obtain ⟨_, rfl, rfl⟩ := finished
      exact .inr ⟨failed_append.mpr (.inl failed), rfl, e, rfl⟩
  obtain ⟨later, ⟨rfl, answered⟩ | ⟨rfl, e, faulty, failed⟩⟩ := ends_query ends
  · cases found : chunkOf campaignID chunkKey s with
    | none =>
        have unrecorded : ¬Recorded campaignID chunkKey s := by
          rintro ⟨_, c, stored, _⟩
          rw [found] at stored
          cases stored
        obtain ⟨e, missing, kind⟩ : ∃ e, chunkGet campaignID chunkKey s = .error e ∧ e.kind = .notFound := by
          rw [chunkGet]
          rw [chunkOf] at found
          rw [found]
          exact ⟨_, rfl, rfl⟩
        rw [missing] at answered
        simp only [kind] at answered
        rcases recordOpen unrecorded answered with opened | ⟨failed, rest⟩
        · exact .inl opened
        · exact .inr (.inr ⟨failed_cons.mpr (.inr failed), rest⟩)
    | some prev =>
        have present : chunkGet campaignID chunkKey s = .ok prev := by
          rw [chunkGet]
          rw [chunkOf] at found
          rw [found]
        rw [present] at answered
        by_cases completed : prev.state = .completed
        · simp only [completed] at answered
          obtain ⟨_, rfl, rfl⟩ := answered
          exact .inr (.inl ⟨prev, rfl, keyless, completed, rfl, rfl⟩)
        · simp only [completed] at answered
          have unrecorded : ¬Recorded campaignID chunkKey s := by
            rintro ⟨_, c, stored, done⟩
            rw [found] at stored
            cases stored
            exact completed done
          rcases recordOpen unrecorded answered with opened | ⟨failed, rest⟩
          · exact .inl opened
          · exact .inr (.inr ⟨failed_cons.mpr (.inr failed), rest⟩)
  · have other : e.kind ≠ .notFound := faulty.ne nofun
    simp only [other] at failed
    obtain ⟨_, rfl, rfl⟩ := failed
    exact .inr (.inr ⟨failed_cons.mpr (.inl rfl), rfl, e, rfl⟩)

variable {res : Summary}

theorem closeChunk_ends (named : campaignID ≠ [])
    (ends : (closeChunk campaignID chunkKey res).Ends fault s trace (reported, failure) after) :
    reported = res ∧ after.toDeliveryRepo = s.toDeliveryRepo ∧ after.campaigns = s.campaigns ∧
      ((failure = none ∧ (chunkKey ≠ [] → ∃ c ∈ chunkOf campaignID chunkKey after, c.state = .completed ∧
          c.accepted = res.accepted ∧ c.duplicates = res.duplicates ∧ c.invalid = res.invalid)) ∨
        (failure ≠ none ∧ after = s ∧ Failed trace)) := by
  unfold closeChunk at ends
  by_cases keyless : chunkKey = []
  · simp only [keyless] at ends
    obtain ⟨_, same, rfl⟩ := ends
    cases same
    exact ⟨rfl, rfl, rfl, .inl ⟨rfl, fun keyed => absurd keyless keyed⟩⟩
  · simp only [keyless] at ends
    obtain ⟨first, second, put, middle, rfl, started, finished⟩ := ends_bind ends
    rcases putChunk_ends named keyless started with ⟨rfl, stored, rfl, completed, counts⟩ | ⟨failed, rfl, e, rfl⟩
    · obtain ⟨_, same, rfl⟩ := finished
      cases same
      refine ⟨rfl, rfl, rfl, .inl ⟨rfl, fun _ => ⟨stored, ?_, completed, counts⟩⟩⟩
      rw [chunkOf, Table.get_insert_same]
      exact rfl
    · obtain ⟨_, same, rfl⟩ := finished
      cases same
      exact ⟨rfl, rfl, rfl, .inr ⟨nofun, rfl, failed_append.mpr (.inl failed)⟩⟩

variable {lines : List Line}

theorem stream_ends (prepared : Prepared camp now s lines) (counted : existing = s.campaignSize camp.id)
    (ends : (stream ing camp now existing lines).Ends fault s trace (next, failure) after) :
    (failure = none ∧ existing < ing.maxRecipients ∧
        Streamed ing camp existing s {} (incoming camp now lines) lines next after) ∨
      (failure ≠ none ∧ Frame s after ∧ after.Indexed ∧ (∃ done, done <+: (incoming camp now lines).map rowOf ∧
          Admits camp.id s.toDeliveryRepo after.toDeliveryRepo done) ∧
        (s.campaignSize camp.id ≤ ing.maxRecipients → after.campaignSize camp.id ≤ ing.maxRecipients) ∧
        (Alone trace lines → (∃ row ∈ (incoming camp now lines).map rowOf, row.1 = []) ∨
          ing.maxRecipients ≤ s.campaignSize camp.id +
            Roster.added (s.recipients camp.id) ((incoming camp now lines).map rowOf))) := by
  unfold stream at ends
  by_cases full : existing ≥ ing.maxRecipients
  · rw [if_pos full] at ends
    obtain ⟨_, same, rfl⟩ := ends
    cases same
    refine .inr ⟨nofun, ⟨rfl, rfl⟩, prepared.indexed, ⟨[], List.nil_prefix, Admits.refl _ _⟩, id, ?_⟩
    intro _
    exact .inr (by omega)
  · rw [if_neg full] at ends
    have rows : Rows camp.id (incoming camp now lines) := by
      intro d member
      refine ⟨?_, prepared.ids d member⟩
      obtain ⟨line, _, parsed⟩ := List.mem_filterMap.mp member
      cases line <;> simp at parsed
      rw [← parsed]
      rfl
    have ready : Ready ing camp existing s {} (incoming camp now lines) := by
      refine ⟨prepared.named, prepared.indexed, prepared.fresh, rows, rfl, ?_, ?_⟩
      · simpa using counted
      · simp only [List.length_nil]
        omega
    rcases streamLines_ends ready ends with ⟨rfl, streamed⟩ | ⟨failed, stopped⟩
    · exact .inl ⟨rfl, by omega, streamed⟩
    · exact .inr ⟨failed, stopped.frame, stopped.indexed, stopped.admits, fun _ => stopped.room, stopped.blame⟩

/-- The counts of the completed chunk are handed back. -/
def Replayed (camp : Campaign) (chunkKey : Text) (s : TenantStore) (res : Summary) : Prop :=
  Editable camp ∧ ∃ c ∈ chunkOf camp.id chunkKey s, chunkKey ≠ [] ∧ c.state = .completed ∧
    res = { accepted := c.accepted, duplicates := c.duplicates, invalid := c.invalid, total := s.campaignSize camp.id }

theorem Prepared.aborted (prepared : Prepared camp now s lines) (cause : Editable camp → Failed trace) :
    Aborted ing camp now chunkKey lines s trace s :=
  ⟨⟨[], List.nil_prefix, Admits.refl _ _⟩, rfl, prepared.indexed, id, id,
    fun alone editable => absurd (cause editable) alone.1, fun _ => ⟨rfl, cause⟩⟩

theorem Opened.prepared (opened : Opened camp.id chunkKey s after) (prepared : Prepared camp now s lines) :
    Prepared camp now after lines := by
  refine ⟨prepared.named, ?_, ?_, ?_, prepared.ids⟩
  · rw [opened.campaigns]
    exact prepared.stored
  · rw [opened.repo]
    exact prepared.indexed
  · rw [opened.repo]
    exact prepared.fresh

theorem Opened.aborted (opening : Opened camp.id chunkKey s opened) (frame : Frame opened after)
    (indexed : after.Indexed) (part : ∃ done, done <+: (incoming camp now lines).map rowOf ∧
      Admits camp.id opened.toDeliveryRepo after.toDeliveryRepo done)
    (room : opened.campaignSize camp.id ≤ ing.maxRecipients → after.campaignSize camp.id ≤ ing.maxRecipients)
    (blame : Alone trace lines → (∃ row ∈ (incoming camp now lines).map rowOf, row.1 = []) ∨
      ing.maxRecipients ≤ opened.campaignSize camp.id +
        Roster.added (opened.recipients camp.id) ((incoming camp now lines).map rowOf)) :
    Aborted ing camp now chunkKey lines s trace after := by
  rw [opening.repo] at part room blame
  refine ⟨part, frame.1.trans opening.campaigns, indexed, room, ?_, fun alone _ _ => blame alone, ?_⟩
  · intro _ recorded
    apply opening.open_
    rwa [Recorded, chunkOf, frame.2] at recorded
  · intro recorded
    exact absurd recorded opening.before

def streaming (ing : Ingester) (now : Time) (camp : Campaign) (chunkKey : Text) (lines : List Line) (existing : Int) :
    Proc (Summary × Option Err) := do
  let (run, failure) ← stream ing camp now existing lines
  match ← count camp.id with
  | .error e => return (run.res, failure <|> some e)
  | .ok total =>
      let res := { run.res with total }
      match failure with
      | some e => return (res, some e)
      | none => closeChunk camp.id chunkKey res

theorem streaming_ends (prepared : Prepared camp now s lines) (editable : Editable camp)
    (opening : Opened camp.id chunkKey s opened)
    (ends : (streaming ing now camp chunkKey lines (s.campaignSize camp.id)).Ends (fun _ => Outage) opened trace
      (res, failure) after) :
    (failure = none ∧ Completed ing camp now chunkKey lines s res after) ∨
      (failure ≠ none ∧ Aborted ing camp now chunkKey lines s trace after) := by
  obtain ⟨first, rest, ⟨run, stop⟩, streamed, rfl, started, continued⟩ := ends_bind ends
  obtain ⟨counting, rest, counted, middle, rfl, counts, continued⟩ := ends_bind continued
  have size : (s.campaignSize camp.id : Int) = opened.campaignSize camp.id := by rw [opening.repo]
  obtain ⟨rfl, total⟩ := count_ends counts
  rcases stream_ends (opening.prepared prepared) size started with
    ⟨rfl, below, done⟩ | ⟨failed, frame, indexed, part, room, blame⟩
  · have whole : ∃ done, done <+: (incoming camp now lines).map rowOf ∧
        Admits camp.id opened.toDeliveryRepo middle.toDeliveryRepo done :=
      ⟨_, List.prefix_refl _, done.admits⟩
    rcases total with rfl | ⟨failed, e, rfl⟩
    · obtain ⟨rfl, repo, campaigns, ⟨rfl, chunk⟩ | ⟨failed, rfl, fault⟩⟩ := closeChunk_ends prepared.named continued
      · have admits := done.admits
        have counted := done.counted
        rw [opening.repo] at admits
        refine .inl ⟨rfl, editable, opening.before, below, ?_, ?_, ?_, ?_, ?_, ?_, done.readable, ?_, chunk⟩
        · rwa [repo]
        · rw [campaigns, done.frame.1, opening.campaigns]
        · rw [repo]
          exact done.indexed
        · rw [repo]
          exact done.room
        · have size := admits.size
          dsimp only
          omega
        · simpa [Summary.lines] using done.amount
        · rw [repo]
      · refine .inr ⟨failed, opening.aborted done.frame done.indexed whole (fun _ => done.room) ?_⟩
        intro alone
        exact absurd (not_failed_right (not_failed_right alone.1)) (not_not.mpr fault)
    · obtain ⟨_, same, rfl⟩ := continued
      cases same
      refine .inr ⟨Option.some_ne_none _, opening.aborted done.frame done.indexed whole (fun _ => done.room) ?_⟩
      intro alone
      exact absurd failed (not_failed_left (not_failed_right alone.1))
  · obtain ⟨e, rfl⟩ := Option.ne_none_iff_exists'.mp failed
    have blame : Alone (first ++ (counting ++ rest)) lines → _ := fun alone => blame ⟨not_failed_left alone.1, alone.2⟩
    have aborted := opening.aborted frame indexed part room blame
    rcases total with rfl | ⟨failed, other, rfl⟩ <;>
    · obtain ⟨_, same, rfl⟩ := continued
      cases same
      exact .inr ⟨Option.some_ne_none _, aborted⟩

theorem ingest_ends (prepared : Prepared camp now s lines)
    (ends : (ingest ing now camp.id chunkKey lines).Ends (fun _ => Outage) s trace (res, failure) after) :
    (failure = none ∧ after = s ∧ Replayed camp chunkKey s res) ∨
      (failure = none ∧ Completed ing camp now chunkKey lines s res after) ∨
      (failure ≠ none ∧ Aborted ing camp now chunkKey lines s trace after) := by
  obtain ⟨later, ⟨rfl, answered⟩ | ⟨rfl, e, _, failed⟩⟩ := ends_query ends
  swap
  · obtain ⟨_, same, rfl⟩ := failed
    cases same
    refine .inr (.inr ⟨nofun, prepared.aborted ?_⟩)
    intro _
    exact failed_cons.mpr (.inl rfl)
  have found : campaignGet camp.id s = .ok camp := by
    rw [campaignGet, find, prepared.stored]
  rw [found] at answered
  dsimp only at answered
  by_cases editable : Editable camp
  swap
  · have refused := not_or.mp editable
    rw [if_pos refused] at answered
    obtain ⟨_, same, rfl⟩ := answered
    cases same
    exact .inr (.inr ⟨nofun, prepared.aborted fun allowed => absurd allowed editable⟩)
  have allowed : ¬(camp.status ≠ .draft ∧ camp.status ≠ .scheduled) := by
    rintro ⟨notDraft, notScheduled⟩
    exact editable.elim notDraft notScheduled
  rw [if_neg allowed] at answered
  obtain ⟨counting, rest, counted, middle, rfl, started, continued⟩ := ends_bind answered
  obtain ⟨rfl, rfl | ⟨failed, e, rfl⟩⟩ := count_ends started
  swap
  · obtain ⟨rfl, same, rfl⟩ := continued
    cases same
    refine .inr (.inr ⟨nofun, prepared.aborted ?_⟩)
    intro _
    exact failed_cons.mpr (.inr (failed_append.mpr (.inl failed)))
  obtain ⟨opening, rest, reply, opened, rfl, started, continued⟩ := ends_bind continued
  rcases openChunk_ends prepared.named started with
    ⟨rfl, opening⟩ | ⟨c, stored, keyed, completed, rfl, rfl⟩ | ⟨failed, rfl, e, rfl⟩
  · rcases streaming_ends prepared editable opening continued with completed | ⟨failed, aborted⟩
    · exact .inr (.inl completed)
    · refine .inr (.inr ⟨failed, ?_⟩)
      refine ⟨aborted.admits, aborted.campaigns, aborted.indexed, aborted.room, aborted.chunk, ?_,
        fun recorded => absurd recorded opening.before⟩
      intro alone
      apply aborted.blame
      exact ⟨not_failed_right (not_failed_right fun failed => alone.1 (failed_cons.mpr (.inr failed))), alone.2⟩
  · obtain ⟨rfl, same, rfl⟩ := continued
    cases same
    exact .inl ⟨rfl, rfl, editable, c, stored, keyed, completed, rfl⟩
  · obtain ⟨rfl, same, rfl⟩ := continued
    cases same
    refine .inr (.inr ⟨nofun, prepared.aborted ?_⟩)
    intro _
    have failed : Failed (opening ++ []) := failed_append.mpr (.inl failed)
    exact failed_cons.mpr (.inr (failed_append.mpr (.inr failed)))

end Sendplane.Ingest
