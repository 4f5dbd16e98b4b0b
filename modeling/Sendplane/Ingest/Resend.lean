import Sendplane.Ingest.Counts

namespace Sendplane.Ingest

open Data Data.Strings Store Memstore Memstore.DeliveryRepo Prog Roster List
open Control

variable {syn : LineSyntax} {limits : Limits} {ing : Ingester} {camp : Campaign} {s after : TenantStore} {call again : Call}

section

variable {max : Nat} {buf : Text} {excess : Bool}

theorem readSlice_cut (prompt brokenPrompt : Bool) (part : cut <+: bytes) :
    (readSlice brokenPrompt cut).stop = .ended ∨
      ((readSlice brokenPrompt cut).stop = .bufferFull ∧ (readSlice brokenPrompt cut).rest = []) ∨
      ((readSlice brokenPrompt cut).stop = (readSlice prompt bytes).stop ∧
        (readSlice brokenPrompt cut).chunk = (readSlice prompt bytes).chunk ∧
        (readSlice brokenPrompt cut).rest <+: (readSlice prompt bytes).rest) := by
  obtain ⟨more, rfl⟩ := part
  have whole : (cut ++ more).length = cut.length + more.length := length_append
  -- The first line of the whole ends where that of the cut does, or after the cut.
  have line : ((cut ++ more).takeWhile (· ≠ 10)).length = (cut.takeWhile (· ≠ 10)).length ∨
      ((cut.takeWhile (· ≠ 10)).length = cut.length ∧ cut.length ≤ ((cut ++ more).takeWhile (· ≠ 10)).length) := by
    rw [takeWhile_append]
    split_ifs with through
    · exact .inr ⟨through, by simp⟩
    · exact .inl rfl
  unfold readSlice
  dsimp only
  by_cases newline : (cut.takeWhile (· ≠ 10)).length < cut.length ∧ (cut.takeWhile (· ≠ 10)).length < readBufferBytes
  · have same : ((cut ++ more).takeWhile (· ≠ 10)).length = (cut.takeWhile (· ≠ 10)).length := by omega
    rw [same, if_pos newline, if_pos (by omega)]
    refine .inr (.inr ⟨rfl, ?_, ?_⟩)
    · exact (take_append_of_le_length (by omega)).symm
    · rw [drop_append_of_le_length (by omega)]
      exact prefix_append _ _
  rw [if_neg newline]
  by_cases large : readBufferBytes < cut.length
  · rw [if_pos (.inl large), if_neg (by omega), if_pos (by omega)]
    refine .inr (.inr ⟨rfl, ?_, ?_⟩)
    · exact (take_append_of_le_length (by omega)).symm
    · rw [drop_append_of_le_length (by omega)]
      exact prefix_append _ _
  by_cases full : readBufferBytes < cut.length ∨ (readBufferBytes = cut.length ∧ brokenPrompt = false)
  · rw [if_pos full]
    refine .inr (.inl ⟨rfl, ?_⟩)
    rw [drop_eq_nil_iff]
    omega
  · rw [if_neg full]
    exact .inl rfl

def gathered (max : Nat) (buf : Text) (excess : Bool) (slice : Slice) : Text × Bool :=
  let content := if slice.stop = .newline then slice.chunk.dropLast else slice.chunk
  let excess := excess || max < buf.length + content.length
  (if excess then [] else buf ++ content, excess)

theorem nextLine_full (full : (readSlice src.prompt bytes).stop = .bufferFull) :
    nextLine max src bytes buf excess =
      nextLine max src (readSlice src.prompt bytes).rest (gathered max buf excess (readSlice src.prompt bytes)).1
        (gathered max buf excess (readSlice src.prompt bytes)).2 := by
  rw [nextLine]
  split
  · rfl
  · simp_all
  · simp_all

theorem nextLine_newline (newline : (readSlice src.prompt bytes).stop = .newline) :
    nextLine max src bytes buf excess = (if (gathered max buf excess (readSlice src.prompt bytes)).2 then .tooLong
        else .line (trimCR (gathered max buf excess (readSlice src.prompt bytes)).1), (readSlice src.prompt bytes).rest) := by
  rw [nextLine]
  split
  · simp_all
  · rfl
  · simp_all

theorem nextLine_broken (fails : src.failure = some e) (ended : (readSlice src.prompt bytes).stop = .ended) :
    nextLine max src bytes buf excess = (.failed e, []) := by
  rw [nextLine]
  split
  · simp_all
  · simp_all
  · rw [fails]

theorem nextLine_nil_broken (fails : broken.failure = some e) :
    nextLine max broken [] buf excess = (.failed e, []) := by
  refine nextLine_broken fails ?_
  have positive : 0 < readBufferBytes := by decide
  simp [readSlice, positive.ne']

theorem nextLine_cut (fails : broken.failure = some e) (part : cut <+: bytes) :
    nextLine max broken cut buf excess = (.failed e, []) ∨
      ∃ item left whole, item.isLine = true ∧ nextLine max broken cut buf excess = (item, left) ∧
        nextLine max src bytes buf excess = (item, whole) ∧ left <+: whole := by
  generalize size : cut.length = count
  induction count using Nat.strongRecOn generalizing cut bytes buf excess with
  | ind count ih =>
      rcases readSlice_cut src.prompt broken.prompt part with ended | ⟨full, empty⟩ | ⟨stop, chunk, rest⟩
      · exact .inl (nextLine_broken fails ended)
      · rw [nextLine_full full, empty]
        exact .inl (nextLine_nil_broken fails)
      · have same : gathered max buf excess (readSlice broken.prompt cut) =
            gathered max buf excess (readSlice src.prompt bytes) := by
          simp [gathered, stop, chunk]
        cases kind : (readSlice broken.prompt cut).stop with
        | newline =>
            rw [nextLine_newline kind, nextLine_newline (stop.symm.trans kind), same]
            refine .inr ⟨_, _, _, ?_, rfl, rfl, rest⟩
            split <;> rfl
        | bufferFull =>
            have whole : nextLine max src bytes buf excess = _ := nextLine_full (stop.symm.trans kind)
            rw [nextLine_full kind, whole, same]
            exact ih _ (size ▸ readSlice_full kind) rest rfl
        | ended => exact .inl (nextLine_broken fails kind)

theorem delivered_step (read : nextLine max src bytes [] false = (item, rest)) :
    delivered max src bytes = match item with
      | .eof => []
      | .failed e => [.failed e]
      | .tooLong => .tooLong :: delivered max src rest
      | .line line => .line line :: delivered max src rest := by
  cases item <;>
  · rw [delivered]
    split <;> simp_all

theorem delivered_cut (fails : broken.failure = some e) (part : cut <+: bytes) :
    ∃ first, delivered max broken cut = first ++ [.failed e] ∧ first <+: delivered max src bytes := by
  generalize size : cut.length = count
  induction count using Nat.strongRecOn generalizing cut bytes with
  | ind count ih =>
      rcases nextLine_cut fails part with ended | ⟨item, left, whole, line, cutRead, read, remaining⟩
      · exact ⟨[], delivered_step ended, nil_prefix⟩
      rw [delivered_step cutRead, delivered_step read]
      have shorter (some : ∀ failure, nextLine max broken [] [] false ≠ (item, failure)) : left.length < count :=
        size ▸ nextLine_shorter cutRead some
      rw [nextLine_nil, fails] at shorter
      cases item with
      | eof | failed => cases line
      | tooLong =>
          obtain ⟨first, same, others⟩ := ih _ (shorter nofun) remaining rfl
          exact ⟨.tooLong :: first, by simp [same], cons_prefix_cons.mpr ⟨rfl, others⟩⟩
      | line bytes =>
          obtain ⟨first, same, others⟩ := ih _ (shorter nofun) remaining rfl
          exact ⟨.line bytes :: first, by simp [same], cons_prefix_cons.mpr ⟨rfl, others⟩⟩

end

variable {src : Source}

theorem bodyRows_cut (fails : broken.failure ≠ none) (part : broken.bytes <+: src.bytes) :
    bodyRows syn limits broken <+: bodyRows syn limits src := by
  obtain ⟨e, reason⟩ := Option.ne_none_iff_exists'.mp fails
  obtain ⟨first, same, others⟩ := delivered_cut reason part
  have valid : bodyRows syn limits broken = first.filterMap (itemRow syn limits) := by
    rw [bodyRows, items, same, filterMap_append]
    exact append_nil _
  rw [valid]
  exact others.filterMap _

theorem normalizeEmail_ne_nil {mail : MailSyntax} {email norm : Text} (normalized : mail.normalizeEmail email = .ok norm) :
    norm ≠ [] := by
  unfold MailSyntax.normalizeEmail at normalized
  split_ifs at normalized
  dsimp only at normalized
  split_ifs at normalized
  split at normalized
  · cases normalized
  · split at normalized <;> try cases normalized
    split at normalized <;> cases normalized
    simp

theorem parse_emailNorm (parsed : parse syn limits newID line = .ok d) : d.emailNorm ≠ [] := by
  unfold parse at parsed
  cases decoded : syn.decodeLine line with
  | error detail =>
      rw [decoded] at parsed
      cases parsed
  | ok w =>
      rw [decoded] at parsed
      dsimp only at parsed
      cases normalized : syn.normalizeEmail w.email with
      | error e =>
          rw [normalized] at parsed
          cases parsed
      | ok norm =>
          rw [normalized] at parsed
          cases vars : parse.parseVars syn limits w.vars with
          | error reason =>
              rw [vars] at parsed
              split_ifs at parsed
          | ok values =>
              rw [vars] at parsed
              split_ifs at parsed <;>
              · cases parsed
                exact normalizeEmail_ne_nil normalized

theorem bodyRows_ne_nil (member : row ∈ bodyRows syn limits src) : row.1 ≠ [] := by
  obtain ⟨item, _, valid⟩ := mem_filterMap.mp member
  unfold itemRow at valid
  cases item with
  | failed | tooLong | eof => cases valid
  | line bytes =>
      unfold toLine at valid
      dsimp only at valid
      split_ifs at valid
      cases parsed : parse syn limits [] (trimSpace bytes) with
      | error rejected =>
          rw [parsed] at valid
          cases valid
      | ok d =>
          rw [parsed] at valid
          cases valid
          exact parse_emailNorm parsed

theorem exists_newIDs : ∃ newID, NewIDs s newID := by
  obtain ⟨bound, unused⟩ := Table.exists_bound length s.deliveries
  refine ⟨fun index => replicate (bound + 1 + index) 48, ?_, ?_⟩
  · intro first second same
    have lengths := congrArg length same
    simp only [length_replicate] at lengths
    omega
  · intro index
    refine ⟨by simp, unused _ ?_⟩
    simp only [length_replicate]
    omega

theorem admits_again {rows done part : List (Text × Recipient)} (admits : Admits campaignID first middle done)
    (then_ : Admits campaignID middle last part) (within : done <+: rows) (partly : part <+: rows) :
    ∃ all, all <+: rows ∧ Admits campaignID first last all := by
  rcases prefix_or_prefix_of_prefix within partly with more | less
  · refine ⟨part, partly, ?_, ?_⟩
    · rw [then_.recipients, admits.recipients, enlist_longer more]
    · rw [then_.size, admits.size, admits.recipients, Nat.add_assoc, added_prefix more]
  · refine ⟨done, within, ?_, ?_⟩
    · rw [then_.recipients, admits.recipients, enlist_of_beginning less]
    · rw [then_.size, admits.size, admits.recipients,
        added_of_known (taken_of_enlist fun _ member => less.subset member), Nat.add_zero]

/-- A body is sent again under its key, possibly with a reader that breaks off. -/
def Call.Attempts (call again : Call) : Prop :=
  again.chunkKey = call.chunkKey ∧
    (again.src = call.src ∨ (again.src.bytes <+: call.src.bytes ∧ again.src.failure ≠ none))

/-- An upload of the body, or of a part of it, that returns an error. -/
def FailedAttempt (syn : LineSyntax) (limits : Limits) (ing : Ingester) (campaignID : Text) (call : Call)
    (s : TenantStore) (again : Call) : Prop :=
  Sane s again ∧ call.Attempts again ∧ (again.perform syn limits ing campaignID s).1.2 ≠ none

/-- The same body under the same key, and nothing fails. -/
def Call.Repeats (call again : Call) : Prop :=
  again.chunkKey = call.chunkKey ∧ again.src = call.src ∧ ∀ n, again.plan n = none

theorem Call.Attempts.rows (attempts : call.Attempts again) :
    bodyRows syn limits again.src <+: bodyRows syn limits call.src := by
  rcases attempts.2 with same | ⟨part, fails⟩
  · exact ⟨[], by rw [same, append_nil]⟩
  · exact bodyRows_cut fails part

/-- What holds after any number of failed attempts. -/
structure Attempted (syn : LineSyntax) (limits : Limits) (camp : Campaign) (call : Call) (s after : TenantStore) : Prop
    extends Holds camp after where
  admits : ∃ done, done <+: bodyRows syn limits call.src ∧ Admits camp.id s.toDeliveryRepo after.toDeliveryRepo done
  unrecorded : ¬Recorded camp.id call.chunkKey s → ¬Recorded camp.id call.chunkKey after
  recorded : Recorded camp.id call.chunkKey s → after = s

theorem attempt_step {next : TenantStore} (attempted : Attempted syn limits camp call s after)
    (failed : FailedAttempt syn limits ing camp.id call after again)
    (stepped : (calls syn limits ing camp.id).step after again = some next) :
    Attempted syn limits camp call s next := by
  cases stepped
  obtain ⟨sane, attempts, failure⟩ := failed
  rcases performed : again.perform syn limits ing camp.id after with ⟨⟨res, outcome⟩, next⟩
  rw [performed] at failure
  obtain ⟨_, _, ⟨rfl, _⟩ | ⟨rfl, _⟩ | ⟨_, aborted⟩⟩ := perform_ends attempted.toHolds sane performed
  · exact absurd rfl failure
  · exact absurd rfl failure
  rw [attempts.1] at aborted
  obtain ⟨done, within, admits⟩ := attempted.admits
  obtain ⟨part, partly, then_⟩ := aborted.admits
  rw [incoming_rows] at partly
  refine ⟨⟨attempted.named, aborted.campaigns ▸ attempted.stored, aborted.indexed⟩, ?_, ?_, ?_⟩
  · exact admits_again admits then_ within (partly.trans attempts.rows)
  · exact fun fresh => aborted.chunk (attempted.unrecorded fresh)
  · intro recorded
    have same := attempted.recorded recorded
    rw [← same] at recorded
    exact (aborted.replay recorded).1.trans same

theorem attempted_of_reaches (holds : Holds camp s)
    (reached : (calls syn limits ing camp.id).Reaches (FailedAttempt syn limits ing camp.id call) s after) :
    Attempted syn limits camp call s after := by
  have start : Attempted syn limits camp call s s := ⟨holds, ⟨[], nil_prefix, Admits.refl _ _⟩, id, fun _ => rfl⟩
  refine reached.invariant start ?_
  intro before again next attempted failed stepped
  exact attempt_step attempted failed stepped

theorem lines_readable (readable : src.readable limits) :
    ∀ line ∈ readBody syn limits newID src, line.isUnreadable = false := by
  intro line member
  obtain ⟨index, bound, rfl⟩ := mem_mapIdx.mp member
  have delivered := getElem_mem bound
  cases item : (items limits src)[index] with
  | failed e =>
      rw [item] at delivered
      exact absurd delivered (readable e)
  | tooLong | eof => rfl
  | line bytes =>
      unfold toLine
      dsimp only
      split_ifs
      · rfl
      · cases parse syn limits (newID index) (trimSpace bytes) <;> rfl

theorem repeat_completes (attempted : Attempted syn limits camp call s after) (editable : Editable camp)
    (readable : call.src.readable limits) (sane : Sane after again) (repeats : call.Repeats again)
    (unrecorded : ¬Recorded camp.id call.chunkKey s)
    (room : s.campaignSize camp.id + added (s.recipients camp.id) (bodyRows syn limits call.src) < ing.maxRecipients) :
    (again.perform syn limits ing camp.id after).1.2 = none ∧
      (again.perform syn limits ing camp.id after).2.recipients camp.id =
        enlist (s.recipients camp.id) (bodyRows syn limits call.src) := by
  obtain ⟨key, body, clean⟩ := repeats
  obtain ⟨done, within, admits⟩ := attempted.admits
  have fresh : ¬Recorded camp.id again.chunkKey after := key ▸ attempted.unrecorded unrecorded
  rcases performed : again.perform syn limits ing camp.id after with ⟨⟨res, failure⟩, final⟩
  obtain ⟨trace, quiet, ⟨_, _, _, c, stored, keyed, recorded, _⟩ | ⟨rfl, completed⟩ | ⟨_, aborted⟩⟩ :=
    perform_ends attempted.toHolds sane performed
  · exact absurd ⟨keyed, c, stored, recorded⟩ fresh
  · refine ⟨rfl, ?_⟩
    rw [completed.admits.recipients, incoming_rows, body, admits.recipients, enlist_longer within]
  · have alone : Alone trace (readBody syn limits again.newID again.src) :=
      ⟨quiet clean, lines_readable (body ▸ readable)⟩
    exfalso
    rcases aborted.blame alone editable fresh with ⟨row, member, empty⟩ | full
    · rw [incoming_rows] at member
      exact bodyRows_ne_nil member empty
    · have size := admits.size
      have sum : added (s.recipients camp.id) done + _ = _ := added_prefix within
      rw [incoming_rows, body, admits.recipients] at full
      omega

section

variable {trace : Prog.Trace Tag}

theorem closeChunk_unfinished (keyed : chunkKey ≠ []) (outage : Outage e) :
    ∃ trace, (closeChunk camp.id chunkKey res).Ends (fun _ => Outage) s trace (res, some e) s := by
  unfold closeChunk
  rw [if_neg keyed]
  exact ⟨_, _, .inr ⟨rfl, e, outage, rfl, rfl, rfl⟩⟩

theorem streaming_unfinished (named : camp.id ≠ []) (keyed : chunkKey ≠ []) (outage : Outage e)
    (ends : (streaming ing now camp chunkKey lines existing).Ends (fun _ => Outage) s trace (res, none) after) :
    ∃ trace middle, (streaming ing now camp chunkKey lines existing).Ends (fun _ => Outage) s trace (res, some e) middle ∧
      middle.toDeliveryRepo = after.toDeliveryRepo := by
  obtain ⟨first, rest, ⟨run, failure⟩, streamed, rfl, started, continued⟩ := ends_bind ends
  obtain ⟨counting, rest, total, middle, rfl, counted, continued⟩ := ends_bind continued
  cases total with
  | error reason =>
      obtain ⟨_, same, _⟩ := continued
      cases failure <;> cases same
  | ok total =>
      cases failure with
      | some reason =>
          obtain ⟨_, same, _⟩ := continued
          cases same
      | none =>
          obtain ⟨rfl, repo, _⟩ := closeChunk_ends named continued
          obtain ⟨last, cutOff⟩ := closeChunk_unfinished keyed outage
          exact ⟨_, middle, started.bind (counted.bind cutOff), repo.symm⟩

theorem ingest_unfinished (prepared : Prepared camp now s lines) (keyed : chunkKey ≠ []) (outage : Outage e)
    (unrecorded : ¬Recorded camp.id chunkKey s)
    (ends : (ingest ing now camp.id chunkKey lines).Ends (fun _ => Outage) s trace (res, none) after) :
    ∃ trace middle, (ingest ing now camp.id chunkKey lines).Ends (fun _ => Outage) s trace (res, some e) middle ∧
      middle.toDeliveryRepo = after.toDeliveryRepo := by
  have found : TenantStore.campaignGet camp.id s = .ok camp := by
    rw [TenantStore.campaignGet, find, prepared.stored]
  obtain ⟨later, ⟨rfl, answered⟩ | ⟨rfl, _, _, failed⟩⟩ := ends_query ends
  swap
  · obtain ⟨_, same, _⟩ := failed
    cases same
  rw [found] at answered
  dsimp only at answered
  by_cases refused : camp.status ≠ .draft ∧ camp.status ≠ .scheduled
  · rw [if_pos refused] at answered
    obtain ⟨_, same, _⟩ := answered
    cases same
  rw [if_neg refused] at answered
  obtain ⟨counting, rest, counted, middle, rfl, started, continued⟩ := ends_bind answered
  obtain ⟨rfl, rfl | ⟨_, reason, rfl⟩⟩ := count_ends started
  swap
  · obtain ⟨_, same, _⟩ := continued
    cases same
  obtain ⟨opening, rest, reply, opened, rfl, opens, continued⟩ := ends_bind continued
  rcases openChunk_ends prepared.named opens with ⟨rfl, _⟩ | ⟨c, stored, _, completed, _⟩ | ⟨_, _, reason, rfl⟩
  · obtain ⟨last, final, cutOff, repo⟩ := streaming_unfinished prepared.named keyed outage continued
    refine ⟨_ :: (counting ++ (opening ++ last)), final, Ends.query ?_, repo⟩
    rw [found]
    dsimp only
    rw [if_neg refused]
    exact started.bind (opens.bind cutOff)
  · exact absurd ⟨keyed, c, stored, completed⟩ unrecorded
  · obtain ⟨_, same, _⟩ := continued
    cases same

end

theorem perform_fails_of_full (holds : Holds camp s) (sane : Sane s again) (unrecorded : ¬Recorded camp.id again.chunkKey s)
    (full : ing.maxRecipients ≤ s.campaignSize camp.id) : (again.perform syn limits ing camp.id s).1.2 ≠ none := by
  rcases performed : again.perform syn limits ing camp.id s with ⟨⟨res, failure⟩, final⟩
  obtain ⟨_, _, ⟨_, _, _, c, stored, keyed, recorded, _⟩ | ⟨_, completed⟩ | ⟨failed, _⟩⟩ := perform_ends holds sane performed
  · exact absurd ⟨keyed, c, stored, recorded⟩ unrecorded
  · have below := completed.below
    omega
  · exact failed

def Summary.counts (res : Summary) : Int × Int × Int :=
  (res.accepted, res.duplicates, res.invalid)

variable {res : Summary} {final : TenantStore}

theorem recorded_of_completes (holds : Holds camp s) (sane : Sane s again) (keyed : again.chunkKey ≠ [])
    (performed : again.perform syn limits ing camp.id s = ((res, none), final)) :
    Editable camp ∧ Holds camp final ∧ ∃ c ∈ chunkOf camp.id again.chunkKey final, c.state = .completed ∧
      (c.accepted, c.duplicates, c.invalid) = res.counts := by
  obtain ⟨_, _, ⟨_, rfl, editable, c, stored, _, recorded, rfl⟩ | ⟨_, completed⟩ | ⟨failed, _⟩⟩ :=
    perform_ends holds sane performed
  · exact ⟨editable, holds, c, stored, recorded, rfl⟩
  · obtain ⟨c, stored, recorded, accepted, duplicates, invalid⟩ := completed.chunk keyed
    refine ⟨completed.editable, ⟨holds.named, completed.campaigns ▸ holds.stored, completed.indexed⟩, c, stored, recorded, ?_⟩
    rw [accepted, duplicates, invalid, Summary.counts]
  · exact absurd rfl failed

theorem perform_of_recorded (holds : Holds camp s) (sane : Sane s again) (editable : Editable camp)
    (clean : ∀ n, again.plan n = none) (keyed : again.chunkKey ≠ []) (stored : c ∈ chunkOf camp.id again.chunkKey s)
    (recorded : c.state = .completed) : ∃ res, again.perform syn limits ing camp.id s = ((res, none), s) ∧
      res.counts = (c.accepted, c.duplicates, c.invalid) := by
  rcases performed : again.perform syn limits ing camp.id s with ⟨⟨res, failure⟩, final⟩
  obtain ⟨_, quiet, ⟨rfl, rfl, _, found, same, _, _, rfl⟩ | ⟨_, completed⟩ | ⟨_, aborted⟩⟩ := perform_ends holds sane performed
  · obtain rfl : found = c := Option.some.inj (same.symm.trans stored)
    exact ⟨_, rfl, rfl⟩
  · exact absurd ⟨keyed, c, stored, recorded⟩ completed.unrecorded
  · exact absurd ((aborted.replay ⟨keyed, c, stored, recorded⟩).2 editable) (quiet clean)

/-- The last store call of an attempt can fail after everything is inserted. -/
theorem exists_unfinished (holds : Holds camp s) (sane : Sane s call) (keyed : call.chunkKey ≠ [])
    (unrecorded : ¬Recorded camp.id call.chunkKey s)
    (performed : call.perform syn limits ing camp.id s = ((res, none), final)) :
    ∃ middle, (calls syn limits ing camp.id).Reaches (FailedAttempt syn limits ing camp.id call) s middle ∧
      middle.toDeliveryRepo = final.toDeliveryRepo := by
  have prepared : Prepared camp call.now s (readBody syn limits call.newID call.src) :=
    prepared_of_newIDs holds.named holds.stored holds.indexed sane.1
  have ends : Ends (fun _ => Outage) _ s _ (call.perform syn limits ing camp.id s).1
      (call.perform syn limits ing camp.id s).2 :=
    ends_run (fun n failure planned _ => sane.2 n failure planned) _ s
  rw [performed] at ends
  have outage : Outage ⟨.other, text "connection lost"⟩ := rfl
  obtain ⟨trace, middle, cutOff, repo⟩ := ingest_unfinished prepared keyed outage unrecorded ends
  obtain ⟨plan, faults, ran⟩ := run_of_ends cutOff
  have attempt : Call.perform syn limits ing camp.id { call with plan } s = ((res, some _), middle) := ran
  refine ⟨middle, .single ⟨{ call with plan }, ⟨⟨sane.1, ?_⟩, ⟨rfl, .inl rfl⟩, ?_⟩, ?_⟩, repo⟩
  · intro n failure planned
    obtain ⟨_, lost⟩ := faults n failure planned
    exact lost
  · rw [attempt]
    exact nofun
  · exact congrArg (fun outcome => some outcome.2) attempt

section

variable (syn limits ing)

/-- Sending a body again after failed attempts completes it exactly when it is
recorded already or leaves room below the limit; and a completed body is
answered from its record. -/
theorem resend_completes_iff {camp : Campaign} {s : TenantStore} {call : Call} (holds : Holds camp s) (sane : Sane s call)
    (clean : ∀ n, call.plan n = none) (keyed : call.chunkKey ≠ [])
    (succeeds : (call.perform syn limits ing camp.id s).1.2 = none) :
    ((∀ after, (calls syn limits ing camp.id).Reaches (FailedAttempt syn limits ing camp.id call) s after →
        ∀ again, Sane after again → call.Repeats again → (again.perform syn limits ing camp.id after).1.2 = none ∧
          (again.perform syn limits ing camp.id after).2.recipients camp.id =
            (call.perform syn limits ing camp.id s).2.recipients camp.id) ↔ Recorded camp.id call.chunkKey s ∨
        s.campaignSize camp.id + Roster.added (s.recipients camp.id) (bodyRows syn limits call.src) < ing.maxRecipients) ∧
    (¬Recorded camp.id call.chunkKey s → (call.perform syn limits ing camp.id s).2.recipients camp.id =
      Roster.enlist (s.recipients camp.id) (bodyRows syn limits call.src)) ∧
    ∀ after, (calls syn limits ing camp.id).Reaches (FailedAttempt syn limits ing camp.id call) s after →
      ∀ again, Sane after again → call.Repeats again → ∀ res final,
        again.perform syn limits ing camp.id after = ((res, none), final) →
        ∀ third, Sane final third → call.Repeats third →
          ∃ recorded, third.perform syn limits ing camp.id final = ((recorded, none), final) ∧
            recorded.counts = res.counts := by
  rcases performed : call.perform syn limits ing camp.id s with ⟨⟨res, failure⟩, final⟩
  rw [performed] at succeeds
  obtain rfl : failure = none := succeeds
  obtain ⟨editable, _⟩ := recorded_of_completes holds sane keyed performed
  have completes : ¬Recorded camp.id call.chunkKey s →
      Completed ing camp call.now call.chunkKey (readBody syn limits call.newID call.src) s res final := by
    intro unrecorded
    obtain ⟨_, _, ⟨_, _, _, c, stored, _, done, _⟩ | ⟨_, completed⟩ | ⟨failed, _⟩⟩ := perform_ends holds sane performed
    · exact absurd ⟨keyed, c, stored, done⟩ unrecorded
    · exact completed
    · exact absurd rfl failed
  have rows : _ = bodyRows syn limits call.src := incoming_rows camp call.now call.newID
  refine ⟨⟨?_, ?_⟩, ?_, ?_⟩
  · intro safe
    by_contra neither
    obtain ⟨unrecorded, full⟩ := not_or.mp neither
    obtain ⟨middle, reached, repo⟩ := exists_unfinished holds sane keyed unrecorded performed
    obtain ⟨newID, ids⟩ := exists_newIDs
    have attempted := attempted_of_reaches holds reached
    have again : Sane middle { call with newID } := ⟨ids, by simp [clean]⟩
    obtain ⟨success, _⟩ := safe middle reached { call with newID } again ⟨rfl, rfl, clean⟩
    refine perform_fails_of_full attempted.toHolds again (attempted.unrecorded unrecorded) ?_ success
    have size := (completes unrecorded).admits.size
    rw [rows] at size
    rw [repo]
    omega
  · intro condition after reached again resend repeats
    have attempted := attempted_of_reaches holds reached
    by_cases recorded : Recorded camp.id call.chunkKey s
    · obtain rfl := attempted.recorded recorded
      obtain ⟨_, c, stored, done⟩ := recorded
      obtain ⟨_, first, _⟩ := perform_of_recorded holds sane editable clean keyed stored done
      obtain ⟨_, second, _⟩ := perform_of_recorded holds resend editable repeats.2.2 (repeats.1 ▸ keyed) (repeats.1 ▸ stored) done
      rw [second]
      rw [performed] at first
      cases first
      exact ⟨rfl, rfl⟩
    · have room := condition.resolve_left recorded
      have completed := completes recorded
      have readable := readable_of_lines completed.readable
      rw [completed.admits.recipients, rows]
      exact repeat_completes attempted editable readable resend repeats recorded room
  · intro unrecorded
    rw [(completes unrecorded).admits.recipients, rows]
  · intro after reached again resend repeats counted last completed third sane repeated
    have attempted := attempted_of_reaches holds reached
    obtain ⟨_, still, c, stored, done, same⟩ :=
      recorded_of_completes attempted.toHolds resend (repeats.1 ▸ keyed) completed
    rw [repeats.1, ← repeated.1] at stored
    obtain ⟨recorded, replayed, counts⟩ :=
      perform_of_recorded still sane editable repeated.2.2 (repeated.1 ▸ keyed) stored done
    exact ⟨recorded, replayed, counts.trans same⟩

end

theorem oneAddress_resends :
    (oneAddress.perform plainLines {} {} draftCampaign.id emptyCampaign).1.2 = none ∧
      ∀ after, (calls plainLines {} {} draftCampaign.id).Reaches
          (FailedAttempt plainLines {} {} draftCampaign.id oneAddress) emptyCampaign after →
        ∀ again, Sane after again → oneAddress.Repeats again →
          (again.perform plainLines {} {} draftCampaign.id after).1.2 = none := by
  have succeeds : (oneAddress.perform plainLines {} {} draftCampaign.id emptyCampaign).1.2 = none := by decide +kernel
  have room : Recorded draftCampaign.id oneAddress.chunkKey emptyCampaign ∨
      emptyCampaign.campaignSize draftCampaign.id + added (emptyCampaign.recipients draftCampaign.id)
        (bodyRows plainLines {} oneAddress.src) < (10000000 : Int) := by
    right
    decide +kernel
  refine ⟨succeeds, ?_⟩
  intro after reached again sane repeats
  exact ((resend_completes_iff plainLines {} {} emptyCampaign_holds oneAddress_sane (fun _ => rfl) (by decide)
    succeeds).1.mpr room after reached again sane repeats).1

/-- A campaign for one recipient: the last store call of the first attempt,
which records the chunk as completed, fails after the recipient is inserted. -/
def onlyOne : Ingester where
  maxRecipients := 1

def cutOff : Call where
  src := oneAddress.src
  chunkKey := oneAddress.chunkKey
  newID := oneAddress.newID
  plan n := if n = 8 then some ⟨.other, text "connection lost"⟩ else none

def sentAgain : Call where
  src := oneAddress.src
  chunkKey := oneAddress.chunkKey
  newID := marked 101

theorem resend_refused_at_limit :
    (oneAddress.perform plainLines {} onlyOne draftCampaign.id emptyCampaign).1.2 = none ∧
      ∃ after, (calls plainLines {} onlyOne draftCampaign.id).Reaches
          (FailedAttempt plainLines {} onlyOne draftCampaign.id oneAddress) emptyCampaign after ∧
        Sane after sentAgain ∧ oneAddress.Repeats sentAgain ∧
        (sentAgain.perform plainLines {} onlyOne draftCampaign.id after).1.2.map Err.kind = some .tooManyRecipients := by
  have failed : FailedAttempt plainLines {} onlyOne draftCampaign.id oneAddress emptyCampaign cutOff := by
    refine ⟨⟨oneAddress_sane.1, ?_⟩, ⟨rfl, .inl rfl⟩, by decide +kernel⟩
    intro n e planned
    simp only [cutOff] at planned
    split_ifs at planned
    · cases planned
      rfl
    · cases planned
  refine ⟨by decide +kernel, _, .single ⟨cutOff, failed, rfl⟩, ?_, ⟨rfl, rfl, fun _ => rfl⟩, ?_⟩
  · exact ⟨newIDs_marked (by decide +kernel), by simp [sentAgain]⟩
  · decide +kernel

end Sendplane.Ingest
