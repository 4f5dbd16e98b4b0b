import Sendplane.Data.Encoding
import Sendplane.Probe.Run
import Sendplane.Sender.Headers

namespace Sendplane.Probe

open Data Data.Strings Store Memstore List
open Sender (headerProbe)

structure Field where
  name : Text
  value : Text

abbrev Headers := List Field

/-- Brings a string to the case in which it is compared with an ASCII name: the
letters, and the two other characters that fold to one (long s and the Kelvin sign). -/
def foldCase (s : Text) : Text :=
  s.foldr (fun char rest =>
    if char = 0xC5 ∧ rest.take 1 = [0xBF] then 115 :: rest.drop 1
    else if char = 0xE2 ∧ rest.take 2 = [0x84, 0xAA] then 107 :: rest.drop 2
    else lowerByte char :: rest) []

def Field.named (name : Text) (f : Field) : Bool :=
  foldCase f.name = foldCase name

namespace Headers

def get (h : Headers) (name : Text) : Text :=
  ((h.find? (·.named name)).map Field.value).getD []

def values (h : Headers) (name : Text) : List Text :=
  (h.filter (·.named name)).map Field.value

end Headers

/-- A header without name is dropped. -/
def flush (name value : Text) (out : Headers) : Headers :=
  if name = [] then out else out ++ [{ name, value := trimSpace value }]

def parseLines : List Text → Text → Text → Headers → Headers
  | [], name, value, out => flush name value out
  | line :: rest, name, value, out =>
      let line := if line.getLast? = some 13 then line.dropLast else line
      match line with
      | [] => flush name value out
      | char :: _ =>
          if char = 32 ∨ char = 9 then
            -- A continuation of the last header, if there was one.
            parseLines rest name (if name = [] then value else value ++ 32 :: trimSpace line) out
          else
            let i := line.idxOf 58
            if i = 0 ∨ i = line.length then parseLines rest name value out
            else
              parseLines rest (trimSpace (line.take i)) (trimSpace (line.drop (i + 1))) (flush name value out)

def parseHeaders (raw : Text) : Headers :=
  parseLines (raw.splitOn 10) [] [] []

def subject (runID : Text) : Text :=
  text "[sendplane probe " ++ runID ++ text "]"

/-- The key that the runner signs its tokens with, and the keyed hash. -/
structure TokenOptions where
  hmacKey : Text
  hmac : Text → Text → Text

def TokenOptions.token (opts : TokenOptions) (tenantID runID : Text) : Text :=
  let body := tenantID ++ text "/" ++ runID
  if opts.hmacKey = [] then body
  else body ++ text "/" ++ (hex (opts.hmac opts.hmacKey (tenantID ++ 0 :: runID))).take 16

def TokenOptions.verifyToken (opts : TokenOptions) (tenantID runID token : Text) : Bool :=
  token = opts.token tenantID runID

/-- What the tag of a token covers. -/
def macInput (tenantID runID : Text) : Text :=
  tenantID ++ 0 :: runID

/-- Splits a token without checking its tag: two segments are the unsigned form,
three or more the signed one. -/
def parseToken (token : Text) : Option (Text × Text) :=
  let parts := token.splitOn 47
  if parts.length < 2 then none
  else
    let parts := if 2 < parts.length then parts.dropLast else parts
    let runID := parts.getLastD []
    let tenantID := [47].intercalate parts.dropLast
    if tenantID = [] ∨ runID = [] then none else some (tenantID, runID)

section

variable {opts : TokenOptions} {tag : Text}

theorem parseToken_tagged (plain : 47 ∉ runID) (tagPlain : 47 ∉ tag) :
    parseToken (tenantID ++ 47 :: (runID ++ 47 :: tag)) =
      if tenantID = [] ∨ runID = [] then none else some (tenantID, runID) := by
  have parts : (tenantID ++ 47 :: (runID ++ 47 :: tag)).splitOn 47 = tenantID.splitOn 47 ++ [runID] ++ [tag] := by
    rw [splitOn_append_cons_self, splitOn_append_cons_self, splitOn_eq_singleton plain, splitOn_eq_singleton tagPlain,
      append_assoc]
  have long : 2 < (tenantID.splitOn 47 ++ [runID] ++ [tag]).length := by
    simpa using length_pos_iff.mpr (splitOn_ne_nil 47 tenantID)
  simp only [parseToken, parts, if_pos long, if_neg (Nat.not_lt_of_le long.le), dropLast_concat, getLastD_concat,
    intercalate_splitOn]

theorem parseToken_untagged (named : tenantID ≠ []) (run : runID ≠ []) (tenantPlain : 47 ∉ tenantID)
    (plain : 47 ∉ runID) : parseToken (tenantID ++ 47 :: runID) = some (tenantID, runID) := by
  simp [parseToken, splitOn_append_cons_self, splitOn_eq_singleton, tenantPlain, plain, named, run]

theorem TokenOptions.token_signed (signed : opts.hmacKey ≠ []) : opts.token tenantID runID =
    tenantID ++ 47 :: (runID ++ 47 :: (hex (opts.hmac opts.hmacKey (macInput tenantID runID))).take 16) := by
  rw [token, if_neg signed]
  simp [macInput, show text "/" = [47] from rfl]

theorem parseToken_slash (slash : 47 ∈ tenantID) (plain : 47 ∉ runID) :
    parseToken (tenantID ++ 47 :: runID) ≠ some (tenantID, runID) := by
  obtain ⟨back, front, reversed, free⟩ := eq_append_cons_of_mem (mem_reverse.mpr slash)
  have split : tenantID = front.reverse ++ 47 :: back.reverse := by
    simpa using congrArg reverse reversed
  rw [split, append_assoc, cons_append, parseToken_tagged (by simpa using free) plain]
  split_ifs
  · exact nofun
  · simp

/-- A run is read back from its token exactly if the token is signed or the
tenant has no slash; every token verifies, and what the tag covers tells the runs apart. -/
theorem parseToken_token_iff (opts : TokenOptions) (named : tenantID ≠ []) (run : runID ≠ []) (plain : 47 ∉ runID) :
    (parseToken (opts.token tenantID runID) = some (tenantID, runID) ∧
      opts.verifyToken tenantID runID (opts.token tenantID runID) = true ∧
      (opts.hmacKey ≠ [] → ∀ otherTenant otherRun : Text, 0 ∉ tenantID → 0 ∉ runID → 0 ∉ otherTenant → 0 ∉ otherRun →
        (tenantID, runID) ≠ (otherTenant, otherRun) → macInput tenantID runID ≠ macInput otherTenant otherRun)) ↔
      opts.hmacKey ≠ [] ∨ 47 ∉ tenantID := by
  have verified : opts.verifyToken tenantID runID (opts.token tenantID runID) = true := decide_eq_true rfl
  have apart (otherTenant otherRun : Text) (free : 0 ∉ tenantID) (otherFree : 0 ∉ otherTenant)
      (different : (tenantID, runID) ≠ (otherTenant, otherRun)) : macInput tenantID runID ≠ macInput otherTenant otherRun :=
    fun same => different (Prod.ext_iff.mpr (append_sep_inj free otherFree same))
  by_cases unsigned : opts.hmacKey = []
  · have body : opts.token tenantID runID = tenantID ++ 47 :: runID := by
      simp [TokenOptions.token, unsigned, show text "/" = [47] from rfl]
    constructor
    · rintro ⟨parsed, -⟩
      rw [body] at parsed
      exact .inr fun slash => parseToken_slash slash plain parsed
    · rintro (signed | tenantPlain)
      · exact absurd unsigned signed
      · refine ⟨?_, verified, fun _ _ _ free _ otherFree _ => apart _ _ free otherFree⟩
        rw [body]
        exact parseToken_untagged named run tenantPlain plain
  · have tagPlain : 47 ∉ (hex (opts.hmac opts.hmacKey (macInput tenantID runID))).take 16 :=
      fun member => forall_mem_hex (p := (· ≠ 47)) (by decide) _ _ (mem_of_mem_take member) rfl
    have parsed : parseToken (opts.token tenantID runID) = some (tenantID, runID) := by
      rw [TokenOptions.token_signed unsigned, parseToken_tagged plain tagPlain, if_neg (not_or.mpr ⟨named, run⟩)]
    exact ⟨fun _ => .inl unsigned, fun _ => ⟨parsed, verified, fun _ _ _ free _ otherFree _ => apart _ _ free otherFree⟩⟩

end

def unsignedOptions : TokenOptions where
  hmacKey := []
  hmac _ _ := []

def signedOptions : TokenOptions where
  hmacKey := text "key"
  hmac key input := key ++ input

theorem slashed_tenant_read_back :
    parseToken (signedOptions.token (text "a/b") (text "r")) = some (text "a/b", text "r") ∧
      macInput (text "a/b") (text "r") ≠ macInput (text "a") (text "b/r") := by
  have named : text "a/b" ≠ [] := by decide
  have run : text "r" ≠ [] := by decide
  obtain ⟨parsed, _, apart⟩ := (parseToken_token_iff signedOptions named run (by decide)).mpr (.inl (by decide))
  exact ⟨parsed, apart (by decide) (text "a") (text "b/r") (by decide) (by decide) (by decide) (by decide) (by decide)⟩

/-- Without a key, the run of the tenant `a/b` is read as run `b` of the tenant `a`. -/
theorem slashed_tenant_misread : parseToken (unsignedOptions.token (text "a/b") (text "r")) = some (text "a", text "b") := by
  decide +kernel

/-- A mail as the mailbox hands it back. -/
structure RawMessage where
  id : Text
  folder : Text := []
  raw : Text
deriving DecidableEq

abbrev Fetcher := Text → Text → Except Err (List RawMessage)

section

variable (opts : TokenOptions) (fetch : Fetcher) (tenantID runID : Text)

def searched : Except Err (List RawMessage) := do
  let msgs ← fetch headerProbe (opts.token tenantID runID)
  if msgs.length = 0 then fetch (text "Subject") (subject runID) else return msgs

def acceptable (msg : RawMessage) : Bool :=
  let h := parseHeaders msg.raw
  let tok := h.get headerProbe
  if tok ≠ [] && !opts.verifyToken tenantID runID tok then false
  else if tok = [] && !contains (h.get (text "Subject")) runID then false
  else true

def find : Except Err (Option RawMessage) := do
  let msgs ← searched opts fetch tenantID runID
  return msgs.find? (acceptable opts tenantID runID)

/-- The message has a probe header whose value is the token. -/
def Carries (msg : RawMessage) : Prop :=
  opts.token tenantID runID ∈ (parseHeaders msg.raw).values headerProbe

instance (msg : RawMessage) : Decidable (Carries opts tenantID runID msg) :=
  inferInstanceAs (Decidable (_ ∈ _))

/-- A message that names the run in its subject, whose first probe header is
missing or empty and that does not carry the token. -/
def Decoy (msg : RawMessage) : Prop :=
  (parseHeaders msg.raw).get headerProbe = [] ∧ contains ((parseHeaders msg.raw).get (text "Subject")) runID = true ∧
    ¬Carries opts tenantID runID msg

/-- Every decoy comes after a message that carries the token and is acceptable. -/
def DecoysLate (msgs : List RawMessage) : Prop :=
  ∀ before decoy after, msgs = before ++ decoy :: after → Decoy opts tenantID runID decoy →
    ∃ msg ∈ before, Carries opts tenantID runID msg ∧ acceptable opts tenantID runID msg

end

section

theorem Headers.get_mem_values {h : Headers} (nonempty : h.get name ≠ []) : h.get name ∈ h.values name := by
  rw [get] at nonempty ⊢
  cases found : h.find? (·.named name) with
  | none => simp [found] at nonempty
  | some field =>
      have named := find?_some found
      exact mem_map.mpr ⟨field, mem_filter.mpr ⟨mem_of_find?_eq_some found, named⟩, rfl⟩

theorem acceptable_iff {msg : RawMessage} (uncertain : ¬Carries opts tenantID runID msg) :
    acceptable opts tenantID runID msg = true ↔ Decoy opts tenantID runID msg := by
  simp only [acceptable, Decoy, uncertain, not_false_eq_true]
  by_cases empty : (parseHeaders msg.raw).get headerProbe = []
  · simp [empty]
  · have foreign : opts.verifyToken tenantID runID ((parseHeaders msg.raw).get headerProbe) = false := by
      rw [TokenOptions.verifyToken, decide_eq_false_iff_not]
      intro same
      apply uncertain
      rw [Carries, ← same]
      exact Headers.get_mem_values empty
    simp [empty, foreign]

theorem first_carries_iff :
    (∀ msg, msgs.find? (acceptable opts tenantID runID) = some msg → Carries opts tenantID runID msg) ↔
      DecoysLate opts tenantID runID msgs := by
  constructor
  · intro carries before decoy after split isDecoy
    have accepted := (acceptable_iff isDecoy.2.2).mpr isDecoy
    cases found : before.find? (acceptable opts tenantID runID) with
    | some msg =>
        refine ⟨msg, mem_of_find?_eq_some found, carries msg ?_, find?_some found⟩
        rw [split, find?_append, found, Option.some_or]
    | none =>
        refine absurd (carries decoy ?_) isDecoy.2.2
        rw [split, find?_append, found, Option.none_or, find?_cons_of_pos accepted]
  · intro late msg found
    by_contra foreign
    obtain ⟨accepted, before, after, split, refused⟩ := find?_eq_some_iff_append.mp found
    obtain ⟨other, member, -, passes⟩ := late before msg after split ((acceptable_iff foreign).mp accepted)
    have refusedOther := refused other member
    simp [passes] at refusedOther

end

/-- No write of a run says that its mail has come back. -/
def Undelivered (call : Call) (_ : TenantStore → TenantStore) : Prop :=
  ∀ seen written, call = .updateRun seen written → written.delivered = false

section

theorem read_undelivered : Undelivered .read effect := by
  intro seen written same
  cases same

theorem drain_undelivered {α : Type} {list : Page → TenantStore → Except Err (Result α)} {out : List α} :
    (drain list pages cursor out).Makes Undelivered fun _ => True := by
  induction pages generalizing cursor out with
  | zero => trivial
  | succ pages ih =>
      apply Prog.makes_query read_undelivered
      intro reply _
      cases reply with
      | error e => trivial
      | ok res =>
          dsimp only
          split
          · trivial
          · exact ih

theorem runDNS_undelivered : (runDNS r senderID observedIP).Makes Undelivered fun _ => True := by
  unfold runDNS
  split
  · trivial
  · apply Prog.makes_query read_undelivered
    intro reply _
    cases reply <;> trivial

theorem updateRun_undelivered {written : ProbeRun} (undelivered : written.delivered = false) :
    (updateRun run written).Makes Undelivered fun _ => True := by
  apply Prog.makes_invoke
  · intro seen other same
    cases same
    exact undelivered
  · intro reply
    cases reply <;> trivial

theorem finishUndelivered_undelivered {what : Text} :
    (finishUndelivered r run what).Makes Undelivered fun _ => True := by
  apply Prog.Makes.bind drain_undelivered
  intro reply _
  cases reply with
  | error e => trivial
  | ok runs => exact runDNS_undelivered.bind fun _ _ => updateRun_undelivered rfl

theorem collectRun_undelivered (nothing : ∀ ev, room.finds run.id ≠ .ok (some ev)) :
    (collectRun r room opened run progress now).Makes Undelivered fun _ => True := by
  unfold collectRun
  dsimp only
  split
  next ev found =>
    split at found
    · exact absurd found (nothing ev)
    · cases found
  · split
    · split
      · exact Prog.Makes.bind (updateRun_undelivered rfl) fun _ _ => trivial
      · exact Prog.Makes.bind finishUndelivered_undelivered fun _ _ => trivial
    · trivial

end

def mailroom (opts : TokenOptions) (fetch : Fetcher) (tenantID : Text) (opens : Text → Option (Err × Text))
    (evidenceOf : RawMessage → Evidence) : Mailroom where
  opens
  finds runID := (find opts fetch tenantID runID).map (Option.map evidenceOf)

/-- A search finds only mails that carry the token of the run exactly if, in what
the mailbox hands back, every decoy comes after a mail that carries it.  Then, as
long as only `own` mails carry tokens, the run is completed only by one of them. -/
theorem find_carries_iff (opts : TokenOptions) (fetch : Fetcher) (tenantID runID : Text) :
    ((∀ msg, find opts fetch tenantID runID = .ok (some msg) → Carries opts tenantID runID msg) ↔
      ∀ msgs, searched opts fetch tenantID runID = .ok msgs → DecoysLate opts tenantID runID msgs) ∧
    ∀ own : RawMessage → Prop, (∀ msg, Carries opts tenantID runID msg → own msg) →
      (∀ msgs, searched opts fetch tenantID runID = .ok msgs → DecoysLate opts tenantID runID msgs) →
      ∀ r opens evidenceOf opened (run : ProbeRun) progress now, run.id = runID →
        (∀ msg, find opts fetch tenantID runID = .ok (some msg) → ¬own msg) →
        (collectRun r (mailroom opts fetch tenantID opens evidenceOf) opened run progress now).Makes
          Undelivered fun _ => True := by
  have meaning : (∀ msg, find opts fetch tenantID runID = .ok (some msg) → Carries opts tenantID runID msg) ↔
      ∀ msgs, searched opts fetch tenantID runID = .ok msgs → DecoysLate opts tenantID runID msgs := by
    rw [find]
    cases answer : searched opts fetch tenantID runID with
    | error e => simp [bind, Except.bind]
    | ok msgs =>
        simp only [bind, Except.bind, pure, Except.pure, Except.ok.injEq, forall_eq']
        exact first_carries_iff
  refine ⟨meaning, ?_⟩
  rintro own authentic late r opens evidenceOf opened run progress now rfl foreign
  apply collectRun_undelivered
  intro ev found
  rw [mailroom] at found
  cases answer : find opts fetch tenantID run.id with
  | error e => simp [answer, Except.map] at found
  | ok result =>
      cases result with
      | none => simp [answer, Except.map] at found
      | some msg => exact foreign msg answer (authentic msg (meaning.mpr late msg answer))

def outsideMail : RawMessage where
  id := text "1"
  raw := text "From: someone@example.org\r\nSubject: [sendplane probe r1]\r\n\r\n"

def outsideFetcher : Fetcher := fun name _ =>
  .ok (if name = text "Subject" then [outsideMail] else [])

def pendingRun : ProbeRun where
  id := text "r1"
  mailboxID := text "m"
  pending := true

def greenRunner : Runner where
  verdict _ := (.green, [])
  newID _ := text "e"

/-- The mail has the subject of the run and no probe header; it is found, and
the run is completed with it. -/
theorem outside_mail_completes :
    find signedOptions outsideFetcher (text "t") (text "r1") = .ok (some outsideMail) ∧
      ¬Carries signedOptions (text "t") (text "r1") outsideMail ∧ ((collectRun greenRunner
          (mailroom signedOptions outsideFetcher (text "t") (fun _ => none) fun _ => { observation := {} })
          (some none) pendingRun {} 1000000).exec { probeRuns := Std.ExtTreeMap.insert ∅ (text "r1") pendingRun }
        ).2.probeRuns[text "r1"]?.map (fun run => (run.delivered, run.status)) = some (true, .green) := by
  decide +kernel

/-- The mail has the subject of the run and the token of another one. -/
def otherProbe : RawMessage where
  id := text "2"
  raw := text "Subject: [sendplane probe r1]\r\nX-Sendplane-Probe: " ++ signedOptions.token (text "t") (text "r2") ++
    text "\r\n\r\n"

theorem other_probe_ignored :
    (collectRun greenRunner (mailroom signedOptions (fun _ _ => .ok [otherProbe]) (text "t") (fun _ => none)
      fun _ => { observation := {} }) (some none) pendingRun {} 1000000).Makes Undelivered fun _ => True := by
  have missing : find signedOptions (fun _ _ => .ok [otherProbe]) (text "t") (text "r1") = .ok none := by decide +kernel
  refine (find_carries_iff signedOptions (fun _ _ => .ok [otherProbe]) (text "t") (text "r1")).2 _ (fun _ => id) ?_
    _ _ _ _ pendingRun _ _ rfl ?_
  · intro msgs found before decoy after split unmarked
    have answered : searched signedOptions (fun _ _ => .ok [otherProbe]) (text "t") (text "r1") = .ok [otherProbe] := rfl
    rw [answered, Except.ok.injEq] at found
    have listed : decoy ∈ [otherProbe] := by simp [found, split]
    rw [mem_singleton.mp listed] at unmarked
    exact absurd unmarked.1 (by decide +kernel)
  · intro msg found
    rw [missing] at found
    cases found

end Sendplane.Probe
