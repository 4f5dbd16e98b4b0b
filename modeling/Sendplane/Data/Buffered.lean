import Mathlib.Data.List.TakeWhile

namespace Sendplane.Data

open List

namespace Buffered

/-- Why a slice ends. -/
inductive Stop where
  | delimiter | bufferFull | ended

variable {β : Type}

def slice [DecidableEq β] (size : Nat) (delim : β) (prompt : Bool) (stream : List β) : (List β × Stop) × List β :=
  let line := stream.takeWhile (· ≠ delim)
  if line.length < stream.length ∧ line.length < size then
    ((stream.take (line.length + 1), .delimiter), stream.drop (line.length + 1))
  else if size < stream.length ∨ (size = stream.length ∧ prompt = false) then
    ((stream.take size, .bufferFull), stream.drop size)
  else ((stream, .ended), [])

/-- The buffer, whether the end has been met and not yet reported, and what the
source gives in the reads to come. -/
structure Reader (β : Type) where
  buffered : List β := []
  ended : Bool := false
  reads : List (List β)

namespace Reader

section

variable (size : Nat) (prompt : Bool)

def stream (r : Reader β) : List β :=
  r.buffered ++ r.reads.flatten

/-- One read into the room that is left.  A source may report its end with its
last bytes. -/
def fill (r : Reader β) : Reader β :=
  match r.reads with
  | [] => { r with ended := true }
  | chunk :: rest =>
      let room := size - r.buffered.length
      if chunk.length ≤ room then
        { buffered := r.buffered ++ chunk, ended := prompt && rest.isEmpty, reads := rest }
      else { r with buffered := r.buffered ++ chunk.take room, reads := chunk.drop room :: rest }

/-- What can still be read before the end is met. -/
def left (r : Reader β) : Nat :=
  if r.ended then 0 else r.reads.flatten.length + r.reads.length + 1

theorem left_fill {r : Reader β} (going : r.ended = false) (room : r.buffered.length < size) :
    (r.fill size prompt).left < r.left := by
  obtain ⟨buffered, ended, reads⟩ := r
  cases going
  cases reads with
  | nil => simp [fill, left]
  | cons chunk rest =>
      simp only [fill]
      split
      · cases prompt && rest.isEmpty with
        | true => simp [left]
        | false =>
            simp [left]
            omega
      · simp only [left, flatten_cons, length_append, length_drop, length_cons] at room ⊢
        simp only [Bool.false_eq_true, ↓reduceIte]
        omega

/-- Reads until the buffer has the delimiter, is full or has all there is. -/
def readSlice [DecidableEq β] (delim : β) (r : Reader β) : (List β × Stop) × Reader β :=
  if delim ∈ r.buffered then
    let line := r.buffered.takeWhile (· ≠ delim)
    ((r.buffered.take (line.length + 1), .delimiter), { r with buffered := r.buffered.drop (line.length + 1) })
  else if _ended : r.ended then ((r.buffered, .ended), { r with buffered := [], ended := false })
  else if _full : size ≤ r.buffered.length then ((r.buffered, .bufferFull), { r with buffered := [] })
  else readSlice delim (r.fill size prompt)
termination_by r.left
decreasing_by exact left_fill size prompt (by simpa using _ended) (by omega)

/-- The reads are not empty, and the end is known once it has been met. -/
structure Consistent (r : Reader β) : Prop where
  room : r.buffered.length ≤ size
  chunks : ∀ chunk ∈ r.reads, chunk ≠ []
  finished : r.ended = true → r.reads = [] ∧ (prompt = false → r.buffered.length < size)
  known : prompt = true → r.reads = [] → r.ended = true ∨ r.buffered = []

end

variable {r : Reader β}

theorem stream_fill : (r.fill size prompt).stream = r.stream := by
  obtain ⟨buffered, ended, reads⟩ := r
  cases reads with
  | nil => rfl
  | cons chunk rest =>
      simp only [fill]
      split
      · simp [stream]
      · simp only [stream, flatten_cons, append_assoc]
        rw [← append_assoc (take _ _), take_append_drop]

theorem Consistent.fill (consistent : r.Consistent size prompt) (room : r.buffered.length < size) :
    (r.fill size prompt).Consistent size prompt := by
  obtain ⟨buffered, ended, reads⟩ := r
  obtain ⟨-, chunks, finished, known⟩ := consistent
  cases reads with
  | nil => exact ⟨room.le, chunks, fun _ => ⟨rfl, fun _ => room⟩, fun _ _ => .inl rfl⟩
  | cons chunk rest =>
      simp only [mem_cons, forall_eq_or_imp] at chunks room
      simp only [Reader.fill]
      split
      next fits =>
        refine ⟨?_, chunks.2, ?_, ?_⟩
        · simp only [length_append]
          omega
        · intro met
          simp only [Bool.and_eq_true, List.isEmpty_iff] at met
          exact ⟨met.2, fun slow => by simp [slow] at met⟩
        · intro early none
          have none : rest = [] := none
          exact .inl (by simp [early, none])
      next large =>
        refine ⟨?_, ?_, ?_, ?_⟩
        · simp only [length_append, length_take]
          omega
        · simp only [mem_cons, forall_eq_or_imp]
          refine ⟨?_, chunks.2⟩
          rw [ne_eq, drop_eq_nil_iff]
          omega
        · intro met
          cases (finished met).1
        · intro _ none
          cases none

theorem consistent_start {reads : List (List β)} (chunks : ∀ chunk ∈ reads, chunk ≠ []) :
    ({ reads } : Reader β).Consistent size prompt :=
  ⟨Nat.zero_le _, chunks, (fun ended => by cases ended), fun _ _ => .inr rfl⟩

variable [DecidableEq β]

theorem length_takeWhile_lt {line : List β} : (line.takeWhile (· ≠ delim)).length < line.length ↔ delim ∈ line := by
  induction line with
  | nil => simp
  | cons first rest ih =>
      by_cases same : first = delim
      · simp [same]
      · simp only [decide_not] at ih
        simp [same, ih, Ne.symm same]

theorem Consistent.slice_found (consistent : r.Consistent size prompt) (found : delim ∈ r.buffered) :
    let line := r.buffered.takeWhile (· ≠ delim)
    line.length < r.buffered.length ∧ slice size delim prompt r.stream =
      ((r.buffered.take (line.length + 1), .delimiter), r.buffered.drop (line.length + 1) ++ r.reads.flatten) := by
  intro line
  have inside : line.length < r.buffered.length := length_takeWhile_lt.mpr found
  have whole : r.stream.takeWhile (· ≠ delim) = line := by
    rw [stream, takeWhile_append, if_neg inside.ne]
  have length : r.stream.length = r.buffered.length + r.reads.flatten.length := length_append
  have room := consistent.room
  refine ⟨inside, ?_⟩
  simp only [slice, whole]
  rw [if_pos ⟨by omega, by omega⟩, stream, take_append_of_le_length (by omega), drop_append_of_le_length (by omega)]

theorem Consistent.slice_ended (consistent : r.Consistent size prompt) (missing : delim ∉ r.buffered)
    (ended : r.ended = true) : slice size delim prompt r.stream = ((r.buffered, .ended), []) := by
  obtain ⟨none, slow⟩ := consistent.finished ended
  have whole : r.stream = r.buffered := by simp [stream, none]
  have through := mt length_takeWhile_lt.mp missing
  have room := consistent.room
  simp only [slice, whole]
  rw [if_neg fun newline => through newline.1, if_neg]
  rintro (large | ⟨filled, late⟩)
  · omega
  · have short := slow late
    omega

theorem Consistent.slice_full (consistent : r.Consistent size prompt) (positive : 0 < size)
    (missing : delim ∉ r.buffered) (going : r.ended = false) (full : size ≤ r.buffered.length) :
    slice size delim prompt r.stream = ((r.buffered, .bufferFull), r.reads.flatten) := by
  have filled : r.buffered.length = size := Nat.le_antisymm consistent.room full
  have through : (r.buffered.takeWhile (· ≠ delim)).length = r.buffered.length :=
    Nat.le_antisymm (takeWhile_sublist _).length_le (Nat.le_of_not_lt (mt length_takeWhile_lt.mp missing))
  have whole : size ≤ (r.stream.takeWhile (· ≠ delim)).length := by
    rw [stream, takeWhile_append, if_pos through, length_append]
    omega
  have length : r.stream.length = r.buffered.length + r.reads.flatten.length := length_append
  -- Bytes are still to come, or the end has not been reported with the last of them.
  have more : size < r.stream.length ∨ (size = r.stream.length ∧ prompt = false) := by
    cases reads : r.reads with
    | nil =>
        right
        refine ⟨by simp [stream, reads, filled], Bool.eq_false_iff.mpr fun early => ?_⟩
        obtain ended | empty := consistent.known early reads
        · simp [going] at ended
        · rw [empty, length_nil] at filled
          omega
    | cons chunk rest =>
        left
        have some := length_pos_iff.mpr (consistent.chunks chunk (by simp [reads]))
        rw [length, reads, flatten_cons, length_append]
        omega
  simp only [slice]
  rw [if_neg fun newline => by omega, if_pos more, stream, take_left' filled, drop_left' filled]

theorem readSlice_shorter (positive : 0 < size) (full : (r.readSlice size prompt delim).1.2 = .bufferFull) :
    (r.readSlice size prompt delim).2.stream.length < r.stream.length := by
  fun_induction readSlice size prompt delim r with
  | case1 | case2 => cases full
  | case3 r missing going large =>
      simp only [stream, nil_append, length_append]
      omega
  | case4 r missing going room ih =>
      rw [stream_fill] at ih
      exact ih full

/-- However the stream comes, the reader hands on the slices of the whole. -/
theorem readSlice_eq_slice (delim : β) (consistent : r.Consistent size prompt) (positive : 0 < size) :
    (r.readSlice size prompt delim).1 = (slice size delim prompt r.stream).1 ∧
      (r.readSlice size prompt delim).2.stream = (slice size delim prompt r.stream).2 ∧
      (r.readSlice size prompt delim).2.Consistent size prompt := by
  fun_induction readSlice size prompt delim r with
  | case1 r found line =>
      obtain ⟨inside, sliced⟩ := consistent.slice_found found
      have room := consistent.room
      rw [sliced]
      refine ⟨rfl, rfl, ?_, consistent.chunks, ?_, ?_⟩
      · simp only [length_drop]
        omega
      · intro ended
        obtain ⟨none, slow⟩ := consistent.finished ended
        refine ⟨none, fun late => ?_⟩
        simp only [length_drop]
        omega
      · intro early none
        refine (consistent.known early none).imp_right fun empty => ?_
        simp [empty] at found
  | case2 r missing ended =>
      rw [consistent.slice_ended missing ended]
      refine ⟨rfl, ?_, Nat.zero_le _, consistent.chunks, ?_, fun _ _ => .inr rfl⟩
      · simp [stream, (consistent.finished ended).1]
      · intro again
        cases again
  | case3 r missing going full =>
      rw [consistent.slice_full positive missing (by simpa using going) full]
      refine ⟨rfl, rfl, Nat.zero_le _, consistent.chunks, ?_, fun _ _ => .inr rfl⟩
      intro ended
      exact absurd ended going
  | case4 r missing going room ih =>
      rw [← stream_fill]
      exact ih (consistent.fill (by omega))

end Reader

end Buffered

end Sendplane.Data
