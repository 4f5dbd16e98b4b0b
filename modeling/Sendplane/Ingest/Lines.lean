import Sendplane.Data.Buffered
import Sendplane.Ingest.Resend

namespace Sendplane.Ingest

open Data Store List

def sliceEnd : Buffered.Stop → SliceEnd
  | .delimiter => .newline
  | .bufferFull => .bufferFull
  | .ended => .ended

theorem readSlice_eq_slice (prompt : Bool) (bytes : Text) :
    readSlice prompt bytes =
      { chunk := (Buffered.slice readBufferBytes 10 prompt bytes).1.1
        rest := (Buffered.slice readBufferBytes 10 prompt bytes).2
        stop := sliceEnd (Buffered.slice readBufferBytes 10 prompt bytes).1.2 } := by
  unfold readSlice Buffered.slice
  dsimp only
  split_ifs <;> rfl

/-- The reader has these bytes still to hand on. -/
structure Feeds (prompt : Bool) (r : Buffered.Reader UInt8) (bytes : Text) : Prop where
  consistent : r.Consistent readBufferBytes prompt
  stream : r.stream = bytes

theorem feeds_start (chunks : ∀ chunk ∈ reads, chunk ≠ []) : Feeds prompt { reads } reads.flatten :=
  ⟨Buffered.Reader.consistent_start chunks, rfl⟩

/-- However the source cuts the stream into reads, the slices are those of the
stream as a whole; only an end that comes with the last bytes shows. -/
theorem Feeds.read (feeds : Feeds prompt r bytes)
    (read : r.readSlice readBufferBytes prompt 10 = ((chunk, stop), r')) :
    readSlice prompt bytes = ⟨chunk, r'.stream, sliceEnd stop⟩ ∧ Feeds prompt r' r'.stream := by
  obtain ⟨consistent, rfl⟩ := feeds
  obtain ⟨same, rest, later⟩ := Buffered.Reader.readSlice_eq_slice 10 consistent (by decide)
  rw [readSlice_eq_slice, ← same, ← rest, read]
  rw [read] at later
  exact ⟨rfl, later, rfl⟩

def answer (line : Text × Bool) : Delivered :=
  if line.2 then .tooLong else .line (trimCR line.1)

/-- `lineReader.next` on a source that ends without an error. -/
def nextFrom (max : Nat) (prompt : Bool) (r : Buffered.Reader UInt8) (line : Text × Bool) :
    Delivered × Buffered.Reader UInt8 :=
  match _read : r.readSlice readBufferBytes prompt 10 with
  | ((chunk, .bufferFull), r') => nextFrom max prompt r' (gathered max line.1 line.2 ⟨chunk, [], .bufferFull⟩)
  | ((chunk, .delimiter), r') => (answer (gathered max line.1 line.2 ⟨chunk, [], .newline⟩), r')
  | ((chunk, .ended), r') =>
      if chunk = [] ∧ (gathered max line.1 line.2 ⟨chunk, [], .ended⟩).2 = false then (.eof, r')
      else (answer (gathered max line.1 line.2 ⟨chunk, [], .ended⟩), r')
termination_by r.stream.length
decreasing_by
  have full : (r.readSlice readBufferBytes prompt 10).1.2 = .bufferFull := by rw [_read]
  have shorter := Buffered.Reader.readSlice_shorter (by decide) full
  rwa [_read] at shorter

def linesFrom (max : Nat) (prompt : Bool) : Nat → Buffered.Reader UInt8 → List Delivered
  | 0, _ => []
  | fuel + 1, r =>
      match nextFrom max prompt r ([], false) with
      | (.eof, _) => []
      | (.failed e, _) => [.failed e]
      | (item, r) => item :: linesFrom max prompt fuel r

/-- What the line reader makes of a source; every line takes a byte. -/
def deliveredFrom (max : Nat) (prompt : Bool) (reads : List Text) : List Delivered :=
  linesFrom max prompt (reads.flatten.length + 1) { reads }

theorem nextLine_ended {max : Nat} (sound : src.failure = none) (ended : (readSlice src.prompt bytes).stop = .ended) :
    nextLine max src bytes buf excess =
      (if (readSlice src.prompt bytes).chunk = [] ∧
          (gathered max buf excess (readSlice src.prompt bytes)).2 = false then .eof
        else if (gathered max buf excess (readSlice src.prompt bytes)).2 then .tooLong
        else .line (trimCR (gathered max buf excess (readSlice src.prompt bytes)).1), []) := by
  rw [nextLine]
  split
  · simp_all
  · simp_all
  · simp only [gathered]
    split_ifs <;> simp_all

section

variable {max : Nat}

theorem readSlice_ended (ended : (readSlice prompt bytes).stop = .ended) : (readSlice prompt bytes).rest = [] := by
  unfold readSlice at ended ⊢
  dsimp only at ended ⊢
  split_ifs at ended ⊢
  rfl

theorem nextFrom_eq (max : Nat) (line : Text × Bool) (sound : src.failure = none) (feeds : Feeds src.prompt r bytes) :
    (nextFrom max src.prompt r line).1 = (nextLine max src bytes line.1 line.2).1 ∧
      Feeds src.prompt (nextFrom max src.prompt r line).2 (nextLine max src bytes line.1 line.2).2 := by
  fun_induction nextFrom max src.prompt r line generalizing bytes with
  | case1 r line chunk r' read ih =>
      obtain ⟨slice, later⟩ := feeds.read read
      rw [nextLine_full (by rw [slice, sliceEnd]), slice]
      exact ih later
  | case2 r line chunk r' read =>
      obtain ⟨slice, later⟩ := feeds.read read
      rw [nextLine_newline (by rw [slice, sliceEnd]), slice]
      exact ⟨rfl, later⟩
  | case3 r line chunk r' read alone =>
      obtain ⟨slice, later⟩ := feeds.read read
      have ended : (readSlice src.prompt bytes).stop = .ended := by rw [slice, sliceEnd]
      have none : r'.stream = [] := by simpa [slice] using readSlice_ended ended
      rw [none] at later
      rw [nextLine_ended sound ended, slice]
      exact ⟨(if_pos alone).symm, later⟩
  | case4 r line chunk r' read more =>
      obtain ⟨slice, later⟩ := feeds.read read
      have ended : (readSlice src.prompt bytes).stop = .ended := by rw [slice, sliceEnd]
      have none : r'.stream = [] := by simpa [slice] using readSlice_ended ended
      rw [none] at later
      rw [nextLine_ended sound ended, slice]
      exact ⟨(if_neg more).symm, later⟩

theorem linesFrom_eq (src : Source) (sound : src.failure = none) (feeds : Feeds src.prompt r bytes)
    (enough : bytes.length < fuel) : linesFrom max src.prompt fuel r = delivered max src bytes := by
  induction fuel generalizing r bytes with
  | zero => omega
  | succ fuel ih =>
      obtain ⟨same, later⟩ := nextFrom_eq max ([], false) sound feeds
      have last := nextLine_nil max src
      rw [sound] at last
      have further {item : Delivered} {rest : Text} (read : nextLine max src bytes [] false = (item, rest))
          (some : item ≠ .eof) :
          linesFrom max src.prompt fuel (nextFrom max src.prompt r ([], false)).2 = delivered max src rest := by
        rw [read] at later
        refine ih later (Nat.lt_of_lt_of_le (nextLine_shorter read fun rest' => ?_) (Nat.le_of_lt_succ enough))
        rw [last]
        exact fun same => some (congrArg Prod.fst same).symm
      cases read : nextLine max src bytes [] false with
      | mk item rest =>
          rw [linesFrom, delivered_step read]
          rw [read] at same
          cases first : nextFrom max src.prompt r ([], false) with
          | mk item' r' =>
              rw [first] at same further
              obtain rfl : item' = item := same
              cases item' with
              | eof | failed => rfl
              | line | tooLong => exact congrArg (cons _) (further read (by simp))

theorem deliveredFrom_eq (max : Nat) (chunks : ∀ chunk ∈ reads, chunk ≠ []) :
    deliveredFrom max prompt reads = delivered max { bytes := reads.flatten, prompt } reads.flatten :=
  linesFrom_eq { bytes := reads.flatten, prompt } rfl (feeds_start chunks) (Nat.lt_succ_self _)

end

def verdict (max : Nat) (line : Text) : Delivered :=
  if max < line.length then .tooLong else .line (trimCR line)

/-- What the reader keeps of a line that it has seen the beginning of. -/
def held (max : Nat) (line : Text) : Text :=
  if max < line.length then [] else line

section

variable {max : Nat} {line : Text}

theorem gathered_held (content : Text)
    (same : content = if slice.stop = .newline then slice.chunk.dropLast else slice.chunk) :
    gathered max (held max before) (max < before.length) slice =
      (held max (before ++ content), decide (max < (before ++ content).length)) := by
  have length : (before ++ content).length = before.length + content.length := length_append
  simp only [gathered, ← same, held]
  by_cases long : max < before.length
  · have longer : max < before.length + content.length := by omega
    simp [long, longer]
  · simp [long]

theorem readSlice_line (prompt : Bool) (rest : Text) (plain : 10 ∉ line) :
    readSlice prompt (line ++ 10 :: rest) =
      if line.length < readBufferBytes then { chunk := line ++ [10], rest, stop := .newline }
      else
        { chunk := line.take readBufferBytes, rest := line.drop readBufferBytes ++ 10 :: rest
          stop := .bufferFull } := by
  have first : (line ++ 10 :: rest).takeWhile (· ≠ 10) = line := by
    rw [takeWhile_append_of_pos]
    · simp
    · intro char inside
      exact decide_eq_true fun same : char = 10 => plain (same ▸ inside)
  have length : (line ++ 10 :: rest).length = line.length + (rest.length + 1) := length_append
  simp only [readSlice, first]
  by_cases fits : line.length < readBufferBytes
  · rw [if_pos ⟨by omega, fits⟩, if_pos fits]
    congr 1
    · rw [take_length_add_append]
      rfl
    · rw [drop_length_add_append]
      rfl
  · rw [if_neg (by omega), if_pos (.inl (by omega)), if_neg fits,
      take_append_of_le_length (by omega), drop_append_of_le_length (by omega)]

theorem readSlice_last (prompt : Bool) (plain : 10 ∉ line) :
    readSlice prompt line =
      if readBufferBytes < line.length ∨ (readBufferBytes = line.length ∧ prompt = false) then
        { chunk := line.take readBufferBytes, rest := line.drop readBufferBytes, stop := .bufferFull }
      else { chunk := line, rest := [], stop := .ended } := by
  have whole : line.takeWhile (· ≠ 10) = line := by
    rw [takeWhile_eq_self_iff]
    intro char inside
    exact decide_eq_true fun same : char = 10 => plain (same ▸ inside)
  simp only [readSlice, whole, Nat.lt_irrefl, false_and, ↓reduceIte]

theorem verdict_eq (max : Nat) :
    verdict max line = if decide (max < line.length) then .tooLong else .line (trimCR (held max line)) := by
  by_cases long : max < line.length <;> simp [verdict, held, long]

theorem nextLine_line (max : Nat) (src : Source) (before rest : Text) (plain : 10 ∉ line) :
    nextLine max src (line ++ 10 :: rest) (held max before) (max < before.length) =
      (verdict max (before ++ line), rest) := by
  generalize size : line.length = count
  induction count using Nat.strongRecOn generalizing line before with
  | ind count ih =>
      have sliced := readSlice_line src.prompt rest plain
      by_cases fits : line.length < readBufferBytes
      · rw [if_pos fits] at sliced
        rw [nextLine_newline (by rw [sliced]), sliced, gathered_held line (by simp), verdict_eq]
      · rw [if_neg fits] at sliced
        have positive : 0 < readBufferBytes := by decide
        rw [nextLine_full (by rw [sliced]), sliced, gathered_held (line.take readBufferBytes) (by simp),
          ih (line.drop readBufferBytes).length (by rw [length_drop]; omega) _
            (fun inside => plain (mem_of_mem_drop inside)) rfl,
          append_assoc, take_append_drop]

/-- Nothing is left for the slice that reports the end of the stream. -/
def EndsAlone (prompt : Bool) (line : Text) : Prop :=
  line = [] ∨ (prompt = false ∧ readBufferBytes ∣ line.length)

instance (prompt : Bool) (line : Text) : Decidable (EndsAlone prompt line) :=
  inferInstanceAs (Decidable (_ ∨ _))

theorem endsAlone_drop (more : readBufferBytes < line.length ∨ (readBufferBytes = line.length ∧ prompt = false)) :
    EndsAlone prompt (line.drop readBufferBytes) ↔ EndsAlone prompt line := by
  have positive : 0 < readBufferBytes := by decide
  have some : line ≠ [] := by
    rintro rfl
    simp at more
    omega
  simp only [EndsAlone, drop_eq_nil_iff, length_drop, some, false_or]
  constructor
  · rintro (whole | ⟨late, divides⟩)
    · obtain large | ⟨same, late⟩ := more
      · omega
      · exact ⟨late, same ▸ Nat.dvd_refl _⟩
    · exact ⟨late, (Nat.dvd_sub_iff_left (by omega) (Nat.dvd_refl _)).mp divides⟩
  · rintro ⟨late, divides⟩
    exact .inr ⟨late, Nat.dvd_sub divides (Nat.dvd_refl _)⟩

/-- A last line without a newline is answered for, except that a short one is
forgotten if the end comes alone. -/
theorem nextLine_last (max : Nat) (sound : src.failure = none) (before : Text) (plain : 10 ∉ line) :
    nextLine max src line (held max before) (max < before.length) =
      (if EndsAlone src.prompt line ∧ (before ++ line).length ≤ max then .eof
        else verdict max (before ++ line), []) := by
  generalize size : line.length = count
  induction count using Nat.strongRecOn generalizing line before with
  | ind count ih =>
      have positive : 0 < readBufferBytes := by decide
      have sliced := readSlice_last src.prompt plain
      by_cases more : readBufferBytes < line.length ∨ (readBufferBytes = line.length ∧ src.prompt = false)
      · rw [if_pos more] at sliced
        rw [nextLine_full (by rw [sliced]), sliced, gathered_held (line.take readBufferBytes) (by simp),
          ih (line.drop readBufferBytes).length (by rw [length_drop]; omega) _
            (fun inside => plain (mem_of_mem_drop inside)) rfl,
          append_assoc]
        simp [endsAlone_drop more]
      · rw [if_neg more] at sliced
        have alone : EndsAlone src.prompt line ↔ line = [] := by
          refine ⟨?_, .inl⟩
          rintro (empty | ⟨late, divides⟩)
          · exact empty
          · by_contra some
            have least := Nat.le_of_dvd (length_pos_iff.mpr some) divides
            exact more (least.lt_or_eq.imp_right fun same => ⟨same, late⟩)
        rw [nextLine_ended sound (by rw [sliced]), sliced, gathered_held line (by simp), verdict_eq]
        simp [alone]

end

/-- The reference: the stream cut at its newlines, without an empty last part. -/
def segments (bytes : Text) : List Text :=
  let parts := bytes.splitOn 10
  if parts.getLast? = some [] then parts.dropLast else parts

def lastSegment (bytes : Text) : Text :=
  (bytes.splitOn 10).getLastD []

def reference (max : Nat) (bytes : Text) : List Delivered :=
  (segments bytes).map (verdict max)

/-- The last line has no newline, fills its buffers exactly and ends before the
end of the stream is reported. -/
structure Forgotten (max : Nat) (prompt : Bool) (bytes : Text) : Prop where
  unfinished : lastSegment bytes ≠ []
  filled : readBufferBytes ∣ (lastSegment bytes).length
  short : (lastSegment bytes).length ≤ max
  late : prompt = false

variable {line : Text}

theorem splitOn_line (rest : Text) (plain : 10 ∉ line) :
    (line ++ 10 :: rest).splitOn 10 = line :: rest.splitOn 10 := by
  rw [splitOn_append_cons_self, splitOn_eq_singleton plain, singleton_append]

theorem segments_line (rest : Text) (plain : 10 ∉ line) : segments (line ++ 10 :: rest) = line :: segments rest := by
  obtain ⟨first, others, parts⟩ := exists_cons_of_ne_nil (splitOn_ne_nil 10 rest)
  simp only [segments, splitOn_line rest plain, parts, getLast?_cons_cons]
  split_ifs <;> rfl

theorem lastSegment_line (rest : Text) (plain : 10 ∉ line) : lastSegment (line ++ 10 :: rest) = lastSegment rest := by
  obtain ⟨first, others, parts⟩ := exists_cons_of_ne_nil (splitOn_ne_nil 10 rest)
  simp [lastSegment, splitOn_line rest plain, parts]

theorem segments_last (plain : 10 ∉ line) : segments line = if line = [] then [] else [line] := by
  simp only [segments, splitOn_eq_singleton plain]
  split_ifs <;> simp_all

theorem lastSegment_last (plain : 10 ∉ line) : lastSegment line = line := by
  simp [lastSegment, splitOn_eq_singleton plain]

theorem cut_at_newline (bytes : Text) :
    10 ∉ bytes ∨ ∃ line rest, 10 ∉ line ∧ bytes = line ++ 10 :: rest := by
  by_cases newline : (10 : UInt8) ∈ bytes
  · obtain ⟨line, rest, cut, plain⟩ := eq_append_cons_of_mem newline
    exact .inr ⟨line, rest, plain, cut⟩
  · exact .inl newline

theorem segments_ne_nil (unfinished : lastSegment bytes ≠ []) : segments bytes ≠ [] := by
  obtain plain | ⟨line, rest, plain, rfl⟩ := cut_at_newline bytes
  · rw [lastSegment_last plain] at unfinished
    simp [segments_last plain, unfinished]
  · simp [segments_line rest plain]

section

variable {max : Nat} {prompt : Bool} {bytes line : Text}

theorem forgotten_line (plain : 10 ∉ line) :
    Forgotten max prompt (line ++ 10 :: rest) ↔ Forgotten max prompt rest := by
  have same := lastSegment_line rest plain
  constructor
  · rintro ⟨unfinished, filled, short, late⟩
    rw [same] at unfinished filled short
    exact ⟨unfinished, filled, short, late⟩
  · rintro ⟨unfinished, filled, short, late⟩
    rw [← same] at unfinished filled short
    exact ⟨unfinished, filled, short, late⟩

theorem forgotten_last (plain : 10 ∉ bytes) :
    Forgotten max prompt bytes ↔ bytes ≠ [] ∧ EndsAlone prompt bytes ∧ bytes.length ≤ max := by
  have same := lastSegment_last plain
  constructor
  · rintro ⟨unfinished, filled, short, late⟩
    rw [same] at unfinished filled short
    exact ⟨unfinished, .inr ⟨late, filled⟩, short⟩
  · rintro ⟨unfinished, empty | ⟨late, filled⟩, short⟩
    · exact absurd empty unfinished
    · rw [← same] at unfinished filled short
      exact ⟨unfinished, filled, short, late⟩

theorem delivered_verdict (read : nextLine max src bytes [] false = (verdict max line, rest)) :
    delivered max src bytes = verdict max line :: delivered max src rest := by
  unfold verdict at read ⊢
  split_ifs at read ⊢ <;> exact delivered_step read

theorem delivered_nil (sound : src.failure = none) : delivered max src [] = [] := by
  have ended := nextLine_nil max src
  rw [sound] at ended
  exact delivered_step ended

theorem delivered_segments (max : Nat) (src : Source) (sound : src.failure = none) (bytes : Text) :
    (¬Forgotten max src.prompt bytes → delivered max src bytes = reference max bytes) ∧
      (Forgotten max src.prompt bytes → delivered max src bytes = (reference max bytes).dropLast) := by
  generalize size : bytes.length = count
  induction count using Nat.strongRecOn generalizing bytes with
  | ind count ih =>
      have fresh : held max [] = [] ∧ decide (max < ([] : Text).length) = false := by simp [held]
      obtain plain | ⟨line, rest, plain, rfl⟩ := cut_at_newline bytes
      · have read := nextLine_last max sound [] plain
        rw [nil_append] at read
        rw [reference, segments_last plain, forgotten_last plain]
        by_cases empty : bytes = []
        · subst empty
          simp [delivered_nil sound]
        by_cases silent : EndsAlone src.prompt bytes ∧ bytes.length ≤ max
        · rw [if_pos silent] at read
          simp [delivered_step read, empty, silent]
        · rw [if_neg silent] at read
          simp [delivered_verdict read, delivered_nil sound, empty, silent]
      · have read := nextLine_line max src [] rest plain
        rw [nil_append] at read
        obtain ⟨kept, lost⟩ := ih rest.length (by rw [← size]; simp; omega) rest rfl
        rw [delivered_verdict read, forgotten_line plain, reference, segments_line rest plain, map_cons]
        refine ⟨fun remembered => ?_, fun forgotten => ?_⟩
        · rw [kept remembered, reference]
        · have more : (segments rest).map (verdict max) ≠ [] := by
            simpa using segments_ne_nil forgotten.unfinished
          rw [lost forgotten, dropLast_cons_of_ne_nil more, reference]

theorem length_reference_pos (max : Nat) (unfinished : lastSegment bytes ≠ []) : 0 < (reference max bytes).length := by
  rw [reference, length_map]
  exact length_pos_iff.mpr (segments_ne_nil unfinished)

/-- However a source cuts a stream into reads, the line reader answers as the
reference does, unless it forgets the last line.  An empty read is tried again. -/
theorem delivered_eq_reference_iff (max : Nat) (prompt : Bool) (reads : List Text) (chunks : ∀ chunk ∈ reads, chunk ≠ []) :
    deliveredFrom max prompt reads = reference max reads.flatten ↔ ¬Forgotten max prompt reads.flatten := by
  rw [deliveredFrom_eq max chunks]
  obtain ⟨kept, lost⟩ := delivered_segments max { bytes := reads.flatten, prompt } rfl reads.flatten
  refine ⟨fun same forgotten => ?_, kept⟩
  have shorter := congrArg length ((lost forgotten).symm.trans same)
  have some := length_reference_pos max forgotten.unfinished
  rw [length_dropLast] at shorter
  omega

end

theorem shortBody_delivered :
    deliveredFrom 4 false [text "an", text "n\r\nbo"] = [.line (text "ann"), .line (text "bo")] := by
  have remembered : ¬Forgotten 4 false [text "an", text "n\r\nbo"].flatten := fun forgotten =>
    absurd forgotten.filled (by decide)
  rw [(delivered_eq_reference_iff 4 false _ (by decide)).mpr remembered]
  rfl

def fullBody : Text :=
  List.replicate readBufferBytes 97

/-- The reader reports the end of the stream in place of its only line. -/
theorem fullBody_forgotten :
    deliveredFrom ({} : Limits).maxRecipientLineBytes false [fullBody] = [] ∧
      reference ({} : Limits).maxRecipientLineBytes fullBody = [.line fullBody] := by
  have plain : 10 ∉ fullBody := fun newline => absurd (eq_of_mem_replicate newline) (by decide)
  have length : fullBody.length = readBufferBytes := length_replicate
  have some : fullBody ≠ [] := fun empty => by
    rw [empty] at length
    exact absurd length (by decide)
  have whole : reference ({} : Limits).maxRecipientLineBytes fullBody = [.line fullBody] := by
    have fits : ¬({} : Limits).maxRecipientLineBytes < fullBody.length := by
      rw [length]
      decide
    have noCR : trimCR fullBody = fullBody := by
      rw [trimCR, if_neg]
      simp only [fullBody, getLast?_replicate]
      decide
    rw [reference, segments_last plain, if_neg some, map_singleton, verdict, if_neg fits, noCR]
  have forgotten : Forgotten ({} : Limits).maxRecipientLineBytes false fullBody := by
    rw [forgotten_last plain, EndsAlone, length]
    exact ⟨some, .inr ⟨rfl, Nat.dvd_refl _⟩, by decide⟩
  refine ⟨?_, whole⟩
  have once : [fullBody].flatten = fullBody := by simp
  rw [deliveredFrom_eq _ (by simpa using some), once, (delivered_segments _ _ rfl _).2 forgotten, whole]
  rfl

end Sendplane.Ingest
