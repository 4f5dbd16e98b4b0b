import Sendplane.Ingest.Ingest
import Sendplane.Store.Email

namespace Sendplane.Ingest

open Data.Strings Store

/-- What an io.Reader delivers: its bytes, and then the end or an error. -/
structure Source where
  bytes : Text
  failure : Option Err := none
  /-- The last bytes come together with the end. -/
  prompt : Bool := false

def readBufferBytes : Nat := 64 * 1024

inductive SliceEnd where
  | newline | bufferFull | ended
deriving DecidableEq

/-- What one read of the buffer hands on. -/
structure Slice where
  chunk : Text
  rest : Text
  stop : SliceEnd

def readSlice (prompt : Bool) (bytes : Text) : Slice :=
  let line := bytes.takeWhile (· ≠ 10)
  if line.length < bytes.length ∧ line.length < readBufferBytes then
    { chunk := bytes.take (line.length + 1), rest := bytes.drop (line.length + 1), stop := .newline }
  else if readBufferBytes < bytes.length ∨ (readBufferBytes = bytes.length ∧ prompt = false) then
    { chunk := bytes.take readBufferBytes, rest := bytes.drop readBufferBytes, stop := .bufferFull }
  else { chunk := bytes, rest := [], stop := .ended }

theorem readSlice_full (full : (readSlice prompt bytes).stop = .bufferFull) :
    (readSlice prompt bytes).rest.length < bytes.length := by
  unfold readSlice at full ⊢
  dsimp only at full ⊢
  split_ifs at full ⊢ with newline large
  have positive : 0 < readBufferBytes := by decide
  simp only [List.length_drop]
  omega

inductive Delivered where
  | line (bytes : Text)
  | tooLong
  | failed (e : Err)
  | eof

def trimCR (bytes : Text) : Text :=
  if bytes.getLast? = some 13 then bytes.dropLast else bytes

def nextLine (max : Nat) (src : Source) (bytes buf : Text) (tooLong : Bool) : Delivered × Text :=
  let slice := readSlice src.prompt bytes
  let content := if slice.stop = .newline then slice.chunk.dropLast else slice.chunk
  let excess := tooLong || max < buf.length + content.length
  let line := if excess then [] else buf ++ content
  match _stop : slice.stop with
  | .bufferFull => nextLine max src slice.rest line excess
  | .newline => (if excess then .tooLong else .line (trimCR line), slice.rest)
  | .ended =>
      match src.failure with
      | some e => (.failed e, [])
      | none =>
          if slice.chunk = [] ∧ excess = false then (.eof, [])
          else (if excess then .tooLong else .line (trimCR line), [])
termination_by bytes.length
decreasing_by exact readSlice_full _stop

theorem readSlice_rest : (readSlice prompt bytes).rest.length ≤ bytes.length - 1 := by
  have positive : 0 < readBufferBytes := by decide
  unfold readSlice
  dsimp only
  split_ifs <;> simp <;> omega

theorem nextLine_rest (max : Nat) (src : Source) (bytes buf : Text) (tooLong : Bool) :
    (nextLine max src bytes buf tooLong).2.length ≤ bytes.length - 1 := by
  fun_induction nextLine max src bytes buf tooLong with
  | case1 bytes _ _ slice _ _ _ full ih =>
      have shorter : slice.rest.length ≤ bytes.length - 1 := readSlice_rest
      omega
  | case2 bytes => exact readSlice_rest
  | case3 | case4 | case5 => exact Nat.zero_le _

theorem nextLine_nil (max : Nat) (src : Source) :
    nextLine max src [] [] false = (match src.failure with | some e => .failed e | none => .eof, []) := by
  rw [nextLine]
  cases src.failure <;> rfl

theorem nextLine_shorter {max : Nat} (read : nextLine max src bytes [] false = (item, rest))
    (some : ∀ failure, nextLine max src [] [] false ≠ (item, failure)) : rest.length < bytes.length := by
  have bound := nextLine_rest max src bytes [] false
  rw [read] at bound
  cases bytes with
  | nil => exact absurd read (some rest)
  | cons first others =>
      simp only [List.length_cons] at bound ⊢
      omega

def delivered (max : Nat) (src : Source) (bytes : Text) : List Delivered :=
  match _read : nextLine max src bytes [] false with
  | (.eof, _) => []
  | (.failed e, _) => [.failed e]
  | (.tooLong, rest) => .tooLong :: delivered max src rest
  | (.line line, rest) => .line line :: delivered max src rest
termination_by bytes.length
decreasing_by
  all_goals
    apply nextLine_shorter _read
    intro failure
    rw [nextLine_nil]
    cases src.failure <;> simp

/-- A decoded line; the variables stay as they came. -/
structure WireLine where
  email : Text := []
  name : Text := []
  locale : Text := []
  vars : Text := []
  unsubscribeURL : Text := []

/-- The address grammar, the JSON decoder and the URL parser. -/
structure LineSyntax extends MailSyntax where
  decodeLine : Text → Except Text WireLine
  decodeVars : Text → Except Text Vars
  parseURL : Text → Option (Text × Text)

structure Limits where
  maxRecipientLineBytes : Nat := 64 * 1024
  maxVarsBytes : Nat := 8 * 1024

def errBadJSON : Text := text "ingest: line is not a JSON object"
def errBadEmail : Text := text "ingest: invalid email"
def errBadName : Text := text "ingest: name contains CR or LF"
def errBadLocale : Text := text "ingest: invalid locale"
def errVarsTooLarge : Text := text "ingest: vars exceed the vars size limit"
def errBadUnsubscribeURL : Text := text "ingest: unsubscribe_url must be an absolute http(s) URL"

def isLetter (char : UInt8) : Bool :=
  (65 ≤ char && char ≤ 90) || (97 ≤ char && char ≤ 122)

def isAlphanumeric (char : UInt8) : Bool :=
  isLetter char || (48 ≤ char && char ≤ 57)

/-- A language of two or three letters and subtags of two to eight characters. -/
def localeMatches (locale : Text) : Bool :=
  match locale.splitOn 45 with
  | [] => false
  | language :: subtags =>
      2 ≤ language.length && language.length ≤ 3 && language.all isLetter &&
        subtags.all fun tag => 2 ≤ tag.length && tag.length ≤ 8 && tag.all isAlphanumeric

/-- The delivery of a line without the fields of the campaign, or the address and
the reason of its rejection. -/
def parse (syn : LineSyntax) (limits : Limits) (newID : Text) (line : Text) : Except (Text × Text) Delivery :=
  match syn.decodeLine line with
  | .error detail => .error ([], errBadJSON ++ text ": " ++ detail)
  | .ok w =>
      let email := trimSpace w.email
      match syn.normalizeEmail w.email with
      | .error e => .error (email, errBadEmail ++ text ": " ++ e.message)
      | .ok norm =>
          let email := if containsAny email (text "<>") then norm else email
          let name := trimSpace w.name
          let locale := trimSpace w.locale
          let url := trimSpace w.unsubscribeURL
          if containsAny name (text "\r\n") then .error (email, errBadName)
          else if locale ≠ [] ∧ localeMatches locale = false then
            .error (email, errBadLocale ++ text ": " ++ syn.quote (clip locale))
          else match parseVars w.vars with
            | .error reason => .error (email, reason)
            | .ok vars =>
                if url ≠ [] ∧ absolute url = false then
                  .error (email, errBadUnsubscribeURL ++ text ": " ++ syn.quote (clip url))
                else .ok { id := newID, email, emailNorm := norm, name, locale, vars, unsubscribeURL := url }
where
  parseVars (vars : Text) : Except Text Vars := if vars = [] then .ok {}
    else if vars.length > limits.maxVarsBytes then
      .error (errVarsTooLarge ++ text ": " ++ text (toString vars.length) ++ text " > " ++
        text (toString limits.maxVarsBytes) ++ text " bytes")
    else match syn.decodeVars vars with
      | .error detail => .error (errBadJSON ++ text ": vars: " ++ detail)
      | .ok decoded => .ok decoded
  absolute (url : Text) : Bool := match syn.parseURL url with
    | none => false
    | some (scheme, host) => host ≠ [] && (scheme = text "http" || scheme = text "https")

def toLine (syn : LineSyntax) (limits : Limits) (newID : Text) : Delivered → Line
  | .failed e => .unreadable e
  | .tooLong => .tooLong
  | .eof => .blank
  | .line bytes =>
      let line := trimSpace bytes
      if line = [] then .blank
      else match parse syn limits newID line with
        | .error (email, reason) => .rejected email ⟨.other, reason⟩
        | .ok d => .recipient d

def items (limits : Limits) (src : Source) : List Delivered :=
  delivered limits.maxRecipientLineBytes src src.bytes

/-- The lines of a body; `newID` numbers the IDs that one call generates. -/
def readBody (syn : LineSyntax) (limits : Limits) (newID : Nat → Text) (src : Source) : List Line :=
  (items limits src).mapIdx fun index item => toLine syn limits (newID index) item

end Sendplane.Ingest
