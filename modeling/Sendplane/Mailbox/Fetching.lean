import Mathlib.Data.List.DropRight
import Sendplane.Data.Encoding
import Sendplane.Store.Basic

namespace Sendplane.Mailbox

open Data Store List

structure Message where
  id : Text
  raw : Text
  received : Time
deriving DecidableEq

structure FetchBuffer where
  uid : Nat
  bodySection : Option Text
  internalDate : Time

def FetchBuffer.message (b : FetchBuffer) : Option Message :=
  b.bodySection.map fun raw => { id := decimal b.uid, raw, received := b.internalDate }

def imapError (step cause : Text) : Text :=
  text "mailbox: imap " ++ step ++ text ": " ++ cause

def choose (max : Int) (uids : List Nat) : List Nat :=
  let sorted := uids.insertionSort (· ≤ ·)
  if 0 < max ∧ max < sorted.length then sorted.take max.toNat else sorted

/-- The error comes beside the messages if the context is done at the end. -/
def searchAndFetch (search : Except Text (List Nat)) (fetch : List Nat → Except Text (List FetchBuffer)) (max : Int)
    (ctxErr : Option Text) : List Message × Option Text :=
  match search with
  | .error cause => ([], imapError (text "search") cause)
  | .ok [] => ([], none)
  | .ok uids => match fetch (choose max uids) with
    | .error cause => ([], imapError (text "fetch") cause)
    | .ok bufs => ((bufs.filterMap FetchBuffer.message).insertionSort fun a b => a.id ≤ b.id, ctxErr)

/-- A mailbox as the server shows it. -/
structure Server where
  uids : List Nat
  seen : Nat → Bool := fun _ => false
  deleted : Nat → Bool := fun _ => false
  body : Nat → Text
  date : Nat → Time := fun _ => 0

namespace Server

variable (server : Server)

def unhandled : List Nat :=
  server.uids.filter fun uid => !server.seen uid && !server.deleted uid

/-- The smallest of the unhandled UIDs, in their order. -/
def oldest (max : Int) : List Nat :=
  let due := server.unhandled.insertionSort (· ≤ ·)
  if 0 < max then due.take max.toNat else due

def buffer (uid : Nat) : FetchBuffer := ⟨uid, some (server.body uid), server.date uid⟩

def message (uid : Nat) : Message := ⟨decimal uid, server.body uid, server.date uid⟩

/-- The library answers with what the server holds, in any order. -/
structure Answers (search : Except Text (List Nat)) (fetch : List Nat → Except Text (List FetchBuffer)) : Prop where
  found : ∃ uids, search = .ok uids ∧ uids.Perm server.unhandled
  fetched : ∀ asked, ∃ bufs, fetch asked = .ok bufs ∧ bufs.Perm (asked.map server.buffer)

variable {server}

theorem choose_eq {uids : List Nat} (max : Int) (found : uids.Perm server.unhandled) : choose max uids = server.oldest max := by
  have sorted : uids.insertionSort (· ≤ ·) = server.unhandled.insertionSort (· ≤ ·) :=
    Perm.eq_of_pairwise' (pairwise_insertionSort _ _) (pairwise_insertionSort _ _)
      ((perm_insertionSort _ _).trans (found.trans (perm_insertionSort _ _).symm))
  rw [choose, sorted, oldest]
  by_cases limited : 0 < max
  · rw [if_pos limited]
    split
    · rfl
    · rw [take_of_length_le (by omega)]
  · rw [if_neg limited, if_neg (by omega)]

theorem Answers.sorted (answers : server.Answers search fetch) (max : Int) (ctxErr : Option Text) :
    ∃ msgs : List Message, msgs.Perm ((server.oldest max).map server.message) ∧
      (searchAndFetch search fetch max ctxErr).1 = msgs.insertionSort fun a b => a.id ≤ b.id := by
  obtain ⟨uids, rfl, found⟩ := answers.found
  obtain ⟨bufs, fetched, held⟩ := answers.fetched (server.oldest max)
  rw [← choose_eq max found] at fetched held ⊢
  have messages := held.filterMap FetchBuffer.message
  rw [filterMap_map, show FetchBuffer.message ∘ server.buffer = some ∘ server.message from rfl, filterMap_eq_map] at messages
  refine ⟨_, messages, ?_⟩
  cases uids with
  | nil =>
      have nothing : bufs = [] := by simpa [choose] using held
      rw [nothing]
      rfl
  | cons => simp [searchAndFetch, fetched]

/-- The oldest messages come back in the order of their UIDs exactly if the texts of
these UIDs are in that order. -/
theorem searchAndFetch_iff (server : Server) (max : Int) (search : Except Text (List Nat))
    (fetch : List Nat → Except Text (List FetchBuffer)) (ctxErr : Option Text) (answers : server.Answers search fetch) :
    (searchAndFetch search fetch max ctxErr).1 = (server.oldest max).map server.message ↔
      (server.oldest max).Pairwise fun a b => decimal a ≤ decimal b := by
  obtain ⟨msgs, held, result⟩ := answers.sorted max ctxErr
  have sorted := pairwise_insertionSort (fun a b : Message => a.id ≤ b.id) msgs
  rw [result]
  constructor
  · intro same
    rw [same, pairwise_map] at sorted
    exact sorted
  · intro ordered
    refine Perm.eq_of_pairwise ?_ sorted (pairwise_map.mpr ordered) ((perm_insertionSort _ _).trans held)
    intro a b listed member below above
    obtain ⟨uid, -, rfl⟩ := mem_map.mp (held.mem_iff.mp ((mem_insertionSort _).mp listed))
    obtain ⟨other, -, rfl⟩ := mem_map.mp member
    have same : decimal uid = decimal other := List.le_antisymm below above
    rw [← decimalValue_decimal uid, same, decimalValue_decimal]

def twoMessages : Server where
  uids := [10, 9]
  body uid := decimal uid

def threeMessages : Server where
  uids := [12, 10, 11]
  body uid := decimal uid

theorem oldest_two_in_order :
    (searchAndFetch (.ok [12, 10, 11]) (fun asked => .ok (asked.map threeMessages.buffer).reverse) 2 none).1 =
      [threeMessages.message 10, threeMessages.message 11] :=
  (searchAndFetch_iff threeMessages 2 _ _ none
    ⟨⟨_, rfl, .refl _⟩, fun _ => ⟨_, rfl, reverse_perm _⟩⟩).mpr (by decide +kernel)

/-- The tenth message comes before the ninth. -/
theorem tenth_before_ninth : searchAndFetch (.ok [10, 9]) (fun asked => .ok (asked.map twoMessages.buffer)) 0 none =
    ([twoMessages.message 10, twoMessages.message 9], none) := by
  decide +kernel

end Server

def crlf : Text := [13, 10]

def trimRight (line : Text) : Text :=
  line.rdropWhile fun b => b = 13 ∨ b = 10

def unstuff (line : Text) : Text :=
  if [46, 46].isPrefixOf line then line.drop 1 else line

/-- The loop of `retr`, with the part of a line that has been read and the message so far.
The stream ends with an error of its own or with EOF. -/
def retrFrom (num : Int) (readErr : Option Text) (line buf : Text) : Text → Except Text (Text × Text)
  | [] => .error (match readErr with
    | none => text "mailbox: pop3 truncated message " ++ itoa num
    | some cause => text "mailbox: pop3 read: " ++ cause)
  | b :: rest =>
      if b = 10 then
        let trimmed := trimRight (line ++ [b])
        if trimmed = [46] then .ok (buf, rest) else retrFrom num readErr [] (buf ++ (unstuff trimmed ++ crlf)) rest
      else retrFrom num readErr (line ++ [b]) buf rest

/-- The command is sent and its status line read before. -/
def retr (num : Int) (cmd : Except Text Text) (readErr : Option Text) (stream : Text) : Except Text (Text × Text) := do
  let _ ← cmd
  retrFrom num readErr [] [] stream

/-- A server doubles a dot at the start of the message or behind a CRLF. -/
def stuffFrom (start afterCR : Bool) : Text → Text
  | [] => []
  | b :: rest => (if start ∧ b = 46 then [46] else []) ++ b :: stuffFrom (afterCR && b = 10) (b = 13) rest

def transmit (message : Text) : Text :=
  stuffFrom true false message ++ 46 :: crlf

def Ended (line : Text) : Prop :=
  10 ∉ line ∧ line.getLast? ≠ some 13

/-- Lines that are ended by CRLF, none with a LF inside or a CR at its end. -/
def Lined (message : Text) : Prop :=
  ∃ lines : List Text, message = lines.flatMap (· ++ crlf) ∧ ∀ line ∈ lines, Ended line

theorem Lined.add (lined : Lined buf) (ended : Ended line) : Lined (buf ++ (line ++ crlf)) := by
  obtain ⟨lines, rfl, each⟩ := lined
  refine ⟨lines ++ [line], by simp, ?_⟩
  simpa [or_imp, forall_and] using ⟨each, ended⟩

theorem trimRight_eq_self_iff (plain : 10 ∉ line) : trimRight line = line ↔ line.getLast? ≠ some 13 := by
  obtain rfl | ⟨front, b, rfl⟩ := line.eq_nil_or_concat
  · simp [trimRight]
  · have other : b ≠ 10 := fun same => plain (by simp [same])
    simp [trimRight, rdropWhile_eq_self_iff, other]

theorem ended_trimRight (plain : 10 ∉ line) : Ended (trimRight (line ++ [10])) := by
  rw [trimRight, rdropWhile_concat_pos _ _ _ (by decide)]
  have cut : trimRight line <+: line := rdropWhile_prefix _ _
  have within : 10 ∉ trimRight line := fun member => plain (cut.subset member)
  exact ⟨within, (trimRight_eq_self_iff within).mp (rdropWhile_idempotent _ _)⟩

theorem Ended.unstuff (ended : Ended line) : Ended (unstuff line) := by
  unfold Mailbox.unstuff
  split
  next doubled =>
    obtain ⟨rest, rfl⟩ := isPrefixOf_iff_prefix.mp doubled
    exact ⟨fun member => ended.1 (mem_of_mem_drop member), fun last => ended.2 (by simpa using last)⟩
  · exact ended

theorem retrFrom_lined (lined : Lined buf) (plain : 10 ∉ line) (read : retrFrom num readErr line buf stream = .ok (out, rest)) :
    Lined out := by
  induction stream generalizing line buf with
  | nil => cases read
  | cons b stream ih =>
      rw [retrFrom] at read
      split at read
      next broken =>
        subst broken
        dsimp only at read
        split at read
        · cases read
          exact lined
        · exact ih (lined.add (ended_trimRight plain).unstuff) not_mem_nil read
      next other => exact ih lined (by simp [plain, Ne.symm other]) read

theorem retrFrom_append (plain : 10 ∉ part) :
    retrFrom num readErr line buf (part ++ rest) = retrFrom num readErr (line ++ part) buf rest := by
  induction part generalizing line with
  | nil => simp
  | cons b part ih =>
      obtain ⟨other, plain⟩ := ne_and_not_mem_of_not_mem_cons plain
      rw [cons_append, retrFrom, if_neg (Ne.symm other), ih plain, append_assoc, singleton_append]

def dotted (line : Text) : Text :=
  (if line.head? = some 46 then [46] else []) ++ line

theorem stuffFrom_line (start afterCR : Bool) (plain : 10 ∉ line) :
    stuffFrom start afterCR (line ++ (crlf ++ rest)) =
      (if start ∧ line.head? = some 46 then [46] else []) ++ line ++ (crlf ++ stuffFrom true false rest) := by
  induction line generalizing start afterCR with
  | nil => simp [stuffFrom, crlf]
  | cons b line ih =>
      obtain ⟨other, plain⟩ := ne_and_not_mem_of_not_mem_cons plain
      simp [stuffFrom, ih _ _ plain, Ne.symm other]

theorem unstuff_dotted (line : Text) : dotted line ≠ [46] ∧ unstuff (dotted line) = line := by
  rcases line with _ | ⟨b, rest⟩
  · decide
  · by_cases dot : b = 46
    · simp [dotted, unstuff, dot]
    · simp [dotted, unstuff, dot, Ne.symm dot]

theorem Ended.dotted (ended : Ended line) : Ended (dotted line) := by
  rcases line with _ | ⟨b, rest⟩
  · exact ended
  · unfold Mailbox.dotted
    split
    · exact ⟨by simpa using ended.1, by simpa using ended.2⟩
    · exact ended

theorem retrFrom_line (ended : Ended line) :
    retrFrom num readErr [] buf (dotted line ++ (crlf ++ rest)) = retrFrom num readErr [] (buf ++ (line ++ crlf)) rest := by
  have sent := ended.dotted
  have kept : trimRight (dotted line ++ [13] ++ [10]) = dotted line := by
    rw [trimRight, rdropWhile_concat_pos _ _ _ (by decide), rdropWhile_concat_pos _ _ _ (by decide)]
    exact (trimRight_eq_self_iff sent.1).mpr sent.2
  obtain ⟨more, same⟩ := unstuff_dotted line
  have plain : 10 ∉ dotted line ++ [13] := by simp [sent.1]
  have split : dotted line ++ (crlf ++ rest) = dotted line ++ [13] ++ 10 :: rest := by simp [crlf]
  rw [split, retrFrom_append plain, retrFrom, if_pos rfl]
  simp only [nil_append, kept, more, same, if_false]

theorem retrFrom_lines {lines : List Text} (each : ∀ line ∈ lines, Ended line) :
    retrFrom num readErr [] buf (stuffFrom true false (lines.flatMap (· ++ crlf)) ++ (46 :: crlf ++ rest)) =
      .ok (buf ++ lines.flatMap (· ++ crlf), rest) := by
  induction lines generalizing buf with
  | nil => simp [stuffFrom, retrFrom, crlf, trimRight, rdropWhile]
  | cons line lines ih =>
      obtain ⟨ended, each⟩ := forall_mem_cons.mp each
      have sent : stuffFrom true false (line ++ (crlf ++ lines.flatMap (· ++ crlf))) =
          dotted line ++ (crlf ++ stuffFrom true false (lines.flatMap (· ++ crlf))) := by
        simp [stuffFrom_line _ _ ended.1, dotted]
      rw [flatMap_cons, append_assoc, sent, append_assoc, append_assoc, retrFrom_line ended, ih each]
      simp

/-- A message comes back as it was, with the stream behind its end, exactly if each of
its LF follows exactly one CR. -/
theorem retr_transmit_iff (num : Int) (status message rest : Text) (readErr : Option Text) :
    retr num (.ok status) readErr (transmit message ++ rest) = .ok (message, rest) ↔ Lined message := by
  constructor
  · exact retrFrom_lined ⟨[], rfl, nofun⟩ not_mem_nil
  · rintro ⟨lines, rfl, each⟩
    rw [transmit, append_assoc]
    exact retrFrom_lines each

/-- A bare LF comes back as CRLF. -/
theorem bare_lf_rewritten : retr 1 (.ok []) none (transmit (text "a\nb\r\n")) = .ok (text "a\r\nb\r\n", []) := by
  decide

end Sendplane.Mailbox
