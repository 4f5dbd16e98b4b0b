import Sendplane.Ingest.Body
import Sendplane.Ingest.Call

namespace Sendplane.Ingest

open Data Data.Strings Store Memstore Memstore.DeliveryRepo List
open Control

variable {syn : LineSyntax} {limits : Limits}

def Delivered.isBlank : Delivered → Bool
  | .line bytes => trimSpace bytes = []
  | _ => false

def Delivered.isLine : Delivered → Bool
  | .line _ | .tooLong => true
  | .failed _ | .eof => false

def itemRow (syn : LineSyntax) (limits : Limits) (item : Delivered) : Option (Text × Recipient) :=
  match toLine syn limits [] item with
  | .recipient d => some (rowOf d)
  | _ => none

def bodyRows (syn : LineSyntax) (limits : Limits) (src : Source) : List (Text × Recipient) :=
  (items limits src).filterMap (itemRow syn limits)

/-- The IDs a call generates are non-empty, distinct and new to the store. -/
def NewIDs (s : TenantStore) (newID : Nat → Text) : Prop :=
  Function.Injective newID ∧ ∀ index, newID index ≠ [] ∧ s.deliveries[newID index]? = none

theorem parse_newID : parse syn limits newID line = (parse syn limits [] line).map fun d => { d with id := newID } := by
  unfold parse
  cases syn.decodeLine line with
  | error detail => rfl
  | ok w =>
      dsimp only
      cases syn.normalizeEmail w.email with
      | error e => rfl
      | ok norm =>
          cases parse.parseVars syn limits w.vars with
          | error | ok =>
              split_ifs <;> rfl

theorem toLine_newID : toLine syn limits newID item = match toLine syn limits [] item with
      | .recipient d => .recipient { d with id := newID }
      | other => other := by
  cases item with
  | failed | tooLong | eof => rfl
  | line bytes =>
      unfold toLine
      dsimp only
      rw [parse_newID]
      split
      · rfl
      · cases parse syn limits [] (trimSpace bytes) <;> rfl

theorem toLine_isBlank (some : item.isLine = true) : (toLine syn limits newID item).isBlank = item.isBlank := by
  cases item with
  | failed e => cases some
  | tooLong => rfl
  | eof => cases some
  | line bytes =>
      unfold toLine Delivered.isBlank
      by_cases blank : trimSpace bytes = []
      · simp [blank, Line.isBlank]
      · simp only [blank, decide_false]
        cases parse syn limits newID (trimSpace bytes) <;> rfl

theorem incoming_rows (camp : Campaign) (now : Time) (newID : Nat → Text) :
    (incoming camp now (readBody syn limits newID src)).map rowOf = bodyRows syn limits src := by
  unfold incoming readBody bodyRows
  induction items limits src generalizing newID with
  | nil => rfl
  | cons item rest ih =>
      have later := ih fun index => newID (index + 1)
      rw [mapIdx_cons, filterMap_cons, filterMap_cons, toLine_newID, itemRow]
      cases toLine syn limits [] item with
      | recipient d => exact congrArg (rowOf d :: ·) later
      | unreadable | tooLong | blank | rejected => exact later

theorem incoming_ids (newID : Nat → Text) :
    ((incoming camp now (readBody syn limits newID src)).map Delivery.id).Sublist
      ((range (items limits src).length).map newID) := by
  unfold incoming readBody
  induction items limits src generalizing newID with
  | nil => exact Sublist.refl _
  | cons item rest ih =>
      have later := ih fun index => newID (index + 1)
      rw [mapIdx_cons, toLine_newID, length_cons, range_succ_eq_map, map_cons, map_map]
      cases toLine syn limits [] item with
      | recipient d => exact later.cons_cons _
      | unreadable | tooLong | blank | rejected => exact later.cons _

theorem prepared_of_newIDs (named : camp.id ≠ []) (stored : s.campaigns[camp.id]? = some camp) (indexed : s.Indexed)
    (ids : NewIDs s newID) : Prepared camp now s (readBody syn limits newID src) := by
  have sublist : ((incoming camp now (readBody syn limits newID src)).map Delivery.id).Sublist _ := incoming_ids newID
  have generated : ∀ d ∈ incoming camp now (readBody syn limits newID src), ∃ index, newID index = d.id := by
    intro d member
    obtain ⟨index, _, same⟩ := mem_map.mp (sublist.subset (mem_map_of_mem member))
    exact ⟨index, same⟩
  refine ⟨named, stored, indexed, ⟨?_, ?_⟩, ?_⟩
  · exact (nodup_range.map ids.1).sublist sublist
  · intro d member
    obtain ⟨index, same⟩ := generated d member
    exact same ▸ (ids.2 index).2
  · intro d member
    obtain ⟨index, same⟩ := generated d member
    exact same ▸ (ids.2 index).1

variable {src : Source}

theorem delivered_isLine {max : Nat} (member : item ∈ delivered max src bytes) :
    item.isLine = true ∨ ∃ e, item = .failed e := by
  fun_induction delivered max src bytes with
  | case1 => cases member
  | case2 bytes e => exact .inr ⟨e, mem_singleton.mp member⟩
  | case3 bytes rest read ih =>
      rcases mem_cons.mp member with rfl | later
      · exact .inl rfl
      · exact ih later
  | case4 bytes line rest read ih =>
      rcases mem_cons.mp member with rfl | later
      · exact .inl rfl
      · exact ih later

def Source.readable (limits : Limits) (src : Source) : Prop :=
  ∀ e, .failed e ∉ items limits src

theorem readable_of_lines {newID : Nat → Text}
    (readable : ∀ line ∈ readBody syn limits newID src, line.isUnreadable = false) : src.readable limits := by
  intro e member
  obtain ⟨index, bound, found⟩ := mem_iff_getElem.mp member
  have unreadable : toLine syn limits (newID index) (.failed e) ∈ readBody syn limits newID src := by
    rw [readBody, mem_mapIdx]
    exact ⟨index, bound, by rw [found]⟩
  cases readable _ unreadable

theorem counting_mapIdx (newID : Nat → Text) {body : List Delivered} (lines : ∀ item ∈ body, item.isLine = true) :
    counting (body.mapIdx fun index item => toLine syn limits (newID index) item) =
      body.countP fun item => !item.isBlank := by
  induction body generalizing newID with
  | nil => rfl
  | cons item rest ih =>
      obtain ⟨line, others⟩ := forall_mem_cons.mp lines
      have later := ih (fun index => newID (index + 1)) others
      unfold counting at later ⊢
      rw [mapIdx_cons, countP_cons, countP_cons, toLine_isBlank line, later]

theorem counting_readBody (readable : src.readable limits) :
    counting (readBody syn limits newID src) = (items limits src).countP fun item => !item.isBlank := by
  apply counting_mapIdx
  intro item member
  rcases delivered_isLine member with line | ⟨e, rfl⟩
  · exact line
  · exact absurd member (readable e)

/-- One upload of a body, with the failures it meets. -/
structure Call where
  src : Source
  chunkKey : Text := []
  now : Time := 0
  newID : Nat → Text
  plan : Nat → Option Err := fun _ => none

def Call.perform (syn : LineSyntax) (limits : Limits) (ing : Ingester) (campaignID : Text) (call : Call)
    (s : TenantStore) : (Summary × Option Err) × TenantStore :=
  (ingest ing call.now campaignID call.chunkKey (readBody syn limits call.newID call.src)).run call.plan s

def calls (syn : LineSyntax) (limits : Limits) (ing : Ingester) (campaignID : Text) : System TenantStore Call where
  step s call := some (call.perform syn limits ing campaignID s).2

/-- The call generates new IDs and the store fails with errors of its own. -/
def Sane (s : TenantStore) (call : Call) : Prop :=
  NewIDs s call.newID ∧ ∀ n, ∀ e ∈ call.plan n, Outage e

/-- The campaign is stored under its ID and the indexes are in order. -/
structure Holds (camp : Campaign) (s : TenantStore) : Prop where
  named : camp.id ≠ []
  stored : s.campaigns[camp.id]? = some camp
  indexed : s.Indexed

variable {ing : Ingester} {camp : Campaign} {s : TenantStore} {call : Call}

theorem perform_ends (holds : Holds camp s) (sane : Sane s call) {failure : Option Err} {after : TenantStore}
    (performed : call.perform syn limits ing camp.id s = ((res, failure), after)) :
    ∃ trace, ((∀ n, call.plan n = none) → ¬Prog.Failed trace) ∧
      ((failure = none ∧ after = s ∧ Replayed camp call.chunkKey s res) ∨
        (failure = none ∧ Completed ing camp call.now call.chunkKey (readBody syn limits call.newID call.src) s res after) ∨
        (failure ≠ none ∧
          Aborted ing camp call.now call.chunkKey (readBody syn limits call.newID call.src) s trace after)) := by
  have prepared : Prepared camp call.now s (readBody syn limits call.newID call.src) :=
    prepared_of_newIDs holds.named holds.stored holds.indexed sane.1
  have ends : Prog.Ends (fun _ => Outage) _ s _ (call.perform syn limits ing camp.id s).1
      (call.perform syn limits ing camp.id s).2 :=
    Prog.ends_run (fun n failure planned _ => sane.2 n failure planned) _ s
  rw [performed] at ends
  refine ⟨_, ?_, ingest_ends prepared ends⟩
  intro clean
  rw [funext clean]
  exact Prog.not_failed_trace _ s

structure Within (ing : Ingester) (camp : Campaign) (s : TenantStore) : Prop extends Holds camp s where
  room : s.campaignSize camp.id ≤ ing.maxRecipients

theorem perform_within (within : Within ing camp s) (sane : Sane s call) :
    Within ing camp (call.perform syn limits ing camp.id s).2 := by
  rcases performed : call.perform syn limits ing camp.id s with ⟨⟨res, failure⟩, after⟩
  obtain ⟨_, _, ⟨_, rfl, _⟩ | ⟨_, completed⟩ | ⟨_, aborted⟩⟩ := perform_ends within.toHolds sane performed
  · exact within
  · exact ⟨⟨within.named, completed.campaigns ▸ within.stored, completed.indexed⟩, completed.room⟩
  · exact ⟨⟨within.named, aborted.campaigns ▸ within.stored, aborted.indexed⟩, aborted.room within.room⟩

/-- What a call that returns without an error counts, unless it replays a
chunk, and the bound that any sequence of calls keeps. -/
theorem ingest_counts (syn : LineSyntax) (limits : Limits) (ing : Ingester) {camp : Campaign} {s : TenantStore}
    (holds : Holds camp s) :
    (∀ call, Sane s call → ¬Recorded camp.id call.chunkKey s → ∀ res after,
      call.perform syn limits ing camp.id s = ((res, none), after) → call.src.readable limits ∧
      res.accepted + res.duplicates + res.invalid = ((items limits call.src).countP fun item => !item.isBlank : Nat) ∧
      res.accepted = (((bodyRows syn limits call.src).map Prod.fst).dedup.filter fun email =>
        (s.recipients camp.id email).isNone).length ∧
      after.recipients camp.id = Roster.enlist (s.recipients camp.id) (bodyRows syn limits call.src)) ∧
    (s.campaignSize camp.id ≤ ing.maxRecipients → ∀ after, (calls syn limits ing camp.id).Reaches Sane s after →
      after.campaignSize camp.id ≤ ing.maxRecipients) := by
  constructor
  · intro call sane unrecorded res after performed
    obtain ⟨_, _, ⟨_, _, _, c, stored, keyed, done, _⟩ | ⟨_, completed⟩ | ⟨failed, _⟩⟩ := perform_ends holds sane performed
    · exact absurd ⟨keyed, c, stored, done⟩ unrecorded
    · have readable := readable_of_lines completed.readable
      have rows : _ = bodyRows syn limits call.src := incoming_rows camp call.now call.newID
      refine ⟨readable, ?_, ?_, ?_⟩
      · exact completed.amount.trans (by rw [counting_readBody readable])
      · rw [completed.accepted, rows, Roster.added_eq_dedup]
      · rw [completed.admits.recipients, rows]
    · exact absurd rfl failed
  · intro room after reached
    have start : Within ing camp s := ⟨holds, room⟩
    apply Within.room
    refine reached.invariant start ?_
    intro before call _ within sane stepped
    cases stepped
    exact perform_within within sane

def plainLines : LineSyntax where
  lower := id
  lower_control _ _ _ member := member
  quote := id
  parseAddress := .ok
  toASCII := .ok
  decodeLine line := .ok { email := line }
  decodeVars _ := .ok {}
  parseURL _ := none

def marked (mark : UInt8) (index : Nat) : Text :=
  mark :: List.replicate index 48

theorem newIDs_marked (unmarked : ∀ stored ∈ s.deliveries.toList, stored.1.head? ≠ some mark) :
    NewIDs s (marked mark) := by
  constructor
  · intro first second same
    simpa [marked] using congrArg length same
  · intro index
    refine ⟨cons_ne_nil _ _, ?_⟩
    cases found : s.deliveries[marked mark index]? with
    | none => rfl
    | some d => exact absurd rfl (unmarked _ (Table.mem_toList.mpr found))

def draftCampaign : Campaign where
  id := text "c1"
  status := .draft

def emptyCampaign : TenantStore where
  tenant := text "t1"
  clock := 1000000
  campaigns := (∅ : Table Text Campaign).insert (text "c1") draftCampaign

theorem emptyCampaign_holds : Holds draftCampaign emptyCampaign := by
  refine ⟨by decide, Table.get_insert_same _ _ _, ?_⟩
  intro key id
  simp [emptyCampaign]

def oneAddress : Call where
  src := { bytes := text "ann@example.org\n" }
  chunkKey := text "part-1"
  newID := marked 100

theorem oneAddress_sane : Sane emptyCampaign oneAddress :=
  ⟨newIDs_marked (by decide +kernel), by simp [oneAddress]⟩

theorem oneAddress_within : Within {} draftCampaign (oneAddress.perform plainLines {} {} draftCampaign.id emptyCampaign).2 :=
  perform_within ⟨emptyCampaign_holds, by decide +kernel⟩ oneAddress_sane

def shortLines : Limits where
  maxRecipientLineBytes := 16

def smallBatches : Ingester where
  maxRecipients := 4
  batchSize := 2

/-- A stored address, a line that is too long, a blank line, and an address that
comes again after its batch has been written. -/
def mixedBody : Call where
  src := { bytes := text "bob@e.org\nann@example.org\ncal@e.org\ncal@e.org or someone else\n\nbob@e.org\n" }
  chunkKey := text "part-2"
  newID := marked 101

def tooMany : Call where
  src := { bytes := text "dee@e.org\neve@e.org\n" }
  chunkKey := text "part-3"
  newID := marked 102

theorem mixedBody_counted :
    ∃ s res after, mixedBody.perform plainLines shortLines smallBatches draftCampaign.id s = ((res, none), after) ∧
      (res.accepted, res.duplicates, res.invalid) = (2, 2, 1) ∧
      ((items shortLines mixedBody.src).countP fun item => !item.isBlank : Nat) = (5 : Int) ∧
      (tooMany.perform plainLines shortLines smallBatches draftCampaign.id after).1.2 ≠ none ∧
      (tooMany.perform plainLines shortLines smallBatches draftCampaign.id after).2.campaignSize draftCampaign.id ≤
        smallBatches.maxRecipients := by
  let s := (oneAddress.perform plainLines {} {} draftCampaign.id emptyCampaign).2
  let done := mixedBody.perform plainLines shortLines smallBatches draftCampaign.id s
  have counts := ingest_counts plainLines shortLines smallBatches oneAddress_within.toHolds
  have sane : Sane s mixedBody := ⟨newIDs_marked (by decide +kernel), by simp [mixedBody]⟩
  have unrecorded : ¬Recorded draftCampaign.id mixedBody.chunkKey s := by
    have fresh : chunkOf draftCampaign.id mixedBody.chunkKey s = none := by decide +kernel
    rintro ⟨_, c, stored, _⟩
    cases fresh.symm.trans stored
  have performed : done = ((done.1.1, none), done.2) := Prod.ext (Prod.ext rfl (by decide +kernel)) rfl
  have numbers : (done.1.1.accepted, done.1.1.duplicates, done.1.1.invalid) = (2, 2, 1) := by decide +kernel
  obtain ⟨_, lines, _⟩ := counts.1 mixedBody sane unrecorded _ _ performed
  refine ⟨s, _, _, performed, numbers, ?_, by decide +kernel, counts.2 (by decide +kernel) _ ?_⟩
  · simp only [Prod.mk.injEq] at numbers
    rw [← lines, numbers.1, numbers.2.1, numbers.2.2]
    rfl
  · refine (Relation.ReflTransGen.refl.tail ⟨mixedBody, sane, rfl⟩).tail ⟨tooMany, ?_, rfl⟩
    exact ⟨newIDs_marked (by decide +kernel), by simp [tooMany]⟩

def nothingToRead : Call where
  src := { bytes := [] }
  chunkKey := text "part-1"
  newID := marked 101

/-- A replayed chunk counts lines that its own body does not have. -/
theorem replay_counts_earlier_lines :
    ∃ s call res after, Holds draftCampaign s ∧ Sane s call ∧
      call.perform plainLines {} {} draftCampaign.id s = ((res, none), after) ∧
      res.accepted + res.duplicates + res.invalid ≠ ((items {} call.src).countP fun item => !item.isBlank : Nat) := by
  refine ⟨_, nothingToRead, { accepted := 1, total := 1 }, _, oneAddress_within.toHolds, ?_, Prod.ext ?_ rfl, ?_⟩
  · exact ⟨newIDs_marked (by decide +kernel), by simp [nothingToRead]⟩
  · decide +kernel
  · decide +kernel

end Sendplane.Ingest
