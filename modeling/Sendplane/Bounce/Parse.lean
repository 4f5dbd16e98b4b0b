import Sendplane.Bounce.Process
import Sendplane.Store.Email
import Sendplane.Tracking.Token

namespace Sendplane.Bounce

open Data Data.Strings Store Sendplane.Tracking

abbrev Header := List (Text × Text)

def Header.get (h : Header) (name : Text) : Text :=
  (h.lookup name).getD []

/-- What the walk over the MIME parts finds. -/
structure Collected where
  top : Header := []
  dsnPerMessage : Option Header := none
  dsnRecipients : List Header := []
  feedback : Option Header := none
  original : Option Header := none

def trim (s cutset : Text) : Text :=
  ((s.dropWhile cutset.contains).reverse.dropWhile cutset.contains).reverse

def fieldsFrom : Nat → Text → Text → List Text
  | 0, word, _ => if word = [] then [] else [word]
  | fuel + 1, word, s =>
      match s with
      | [] => if word = [] then [] else [word]
      | char :: rest =>
          match spaces.find? (·.isPrefixOf s) with
          | some space =>
              (if word = [] then [] else [word]) ++ fieldsFrom fuel [] (s.drop space.length)
          | none => fieldsFrom fuel (word ++ [char]) rest

def fields (s : Text) : List Text :=
  fieldsFrom s.length [] s

def fieldValue (v : Text) : Text :=
  let v := trimSpace v
  match cut v 59 with
  | some (before, after) => if contains before (text "@") then v else trimSpace after
  | none => v

def addressOnly (syn : MailSyntax) (v : Text) : Text :=
  let v := trimSpace (fieldValue v)
  if v = [] then []
  else match syn.parseAddress v with
    | .ok address => address
    | .error _ =>
        let v := trim v (text "<>")
        match cutLast 60 v with
        | some (_, after) => trimSpace (trim (60 :: after) (text "<>"))
        | none => trimSpace v

/-- The block of the recipient that the report is about: the first failure,
otherwise the first with a status. -/
def recipientBlock (syn : MailSyntax) (c : Collected) : Option Header :=
  let action (b : Header) := syn.toLower (fieldValue (b.get (text "Action")))
  match c.dsnRecipients.find? fun b => action b = text "failed" with
  | some b => some b
  | none =>
      match c.dsnRecipients.find? fun b => b.get (text "Status") ≠ [] || action b ≠ [] with
      | some b => some b
      | none =>
          match c.dsnRecipients with
          | b :: _ => some b
          | [] => c.dsnPerMessage.filter fun h => h.get (text "Final-Recipient") ≠ []

def verpHeaders : List Text :=
  ["Return-Path", "To", "Delivered-To", "X-Original-To", "Envelope-To"].map text

def addresses (syn : MailSyntax) (v : Text) : List Text :=
  ((v.splitOn 44).map (addressOnly syn)).filter (· ≠ [])

/-- Every address that a return path can show up in. -/
def verpCandidates (syn : MailSyntax) (c : Collected) : List Text :=
  let add (h : Header) (names : List Text) := names.flatMap fun name => addresses syn (h.get name)
  add c.top verpHeaders ++
    (c.dsnPerMessage.elim [] fun h => add h (["Original-Envelope-Id", "X-Postfix-Sender"].map text)) ++
    ((recipientBlock syn c).elim [] fun h => add h (["Final-Recipient", "Original-Recipient"].map text)) ++
    (c.feedback.elim [] fun h => add h [text "Original-Mail-From"]) ++
    (c.original.elim [] fun h => add h (["Return-Path", "X-Original-To", "Delivered-To"].map text))

def verpPrefix : Text := text "bounce+"

def verpContext : Text := text "sendplane/verp/v1" ++ [0]

def verpMAC (signer : Signer) (secret deliveryID : Text) : Text :=
  (hex (signer.hmac secret (verpContext ++ deliveryID))).take 8

def verpParts (addr : Text) : Option (Text × Text) :=
  let mailbox := match cut addr 64 with
    | some (before, _) => before
    | none => addr
  if !verpPrefix.isPrefixOf mailbox then none
  else match cutLast 46 (mailbox.drop verpPrefix.length) with
    | none | some ([], _) | some (_, []) => none
    | some (id, mac) => some (id, mac)

/-- The delivery that a return address names, and whether a key verifies it. -/
def parseVERP (signer : Signer) (addr : Text) (keys : List SigningKey) : Option (Text × Bool) :=
  (verpParts addr).map fun (id, mac) =>
    (id, keys.any fun k => k.secret ≠ [] && mac = verpMAC signer k.secret id)

/-- The envelope sender of a delivery; it is empty without a bounce domain or a key. -/
def verpAddress (signer : Signer) (bounceDomain deliveryID secret : Text) : Text :=
  if bounceDomain = [] ∨ deliveryID = [] ∨ secret = [] then []
  else verpPrefix ++ deliveryID ++ 46 :: verpMAC signer secret deliveryID ++ 64 :: bounceDomain

def headerSendplaneID : Text := text "X-Sendplane-Id"

def parseSendplaneID (v : Text) : Option (Text × Text) :=
  match cut (trimSpace v) 47 with
  | none => none
  | some (tenant, delivery) =>
      if trimSpace delivery = [] then none else some (trimSpace tenant, trimSpace delivery)

def messageIDCandidates (c : Collected) : List Text :=
  (c.original.elim [] fun h => [h.get (text "Message-Id")]) ++
    (["In-Reply-To", "References"].map text).flatMap fun name => fields (c.top.get name)

def isHex (char : UInt8) : Bool :=
  (48 ≤ char && char ≤ 57) || (97 ≤ char && char ≤ 102) || (65 ≤ char && char ≤ 70)

def isUUID (s : Text) : Bool :=
  s.length = 36 && s.zipIdx.all fun (char, i) => if i ∈ [8, 13, 18, 23] then char = 45 else isHex char

def deliveryIDFromMessageID (v : Text) : Option Text :=
  match cut (trimSpace (trim (trimSpace v) (text "<>"))) 64 with
  | some (mailbox, _) => if isUUID mailbox then some mailbox else none
  | none => none

/-- A return address that does not verify is not correlated any further. -/
def correlate (syn : MailSyntax) (signer : Signer) (c : Collected) (keys : List SigningKey) : Correlation :=
  match (verpCandidates syn c).findSome? fun addr => parseVERP signer addr keys with
  | some (deliveryID, verified) => { deliveryID, source := .verp, verified }
  | none =>
      match (c.original.toList ++ [c.top]).findSome? fun h => parseSendplaneID (h.get headerSendplaneID) with
      | some (tenantID, deliveryID) => { deliveryID, tenantID, source := .header, verified := true }
      | none =>
          match (messageIDCandidates c).findSome? deliveryIDFromMessageID with
          | some deliveryID => { deliveryID, source := .messageID, verified := true }
          | none => {}

structure Reader where
  syn : MailSyntax
  signer : Signer
  read : Text → Except Err (Collected × Parsed)

def Reader.parseWithKeys (r : Reader) (raw : Text) (keys : List SigningKey) : Except Err Parsed :=
  match r.read raw with
  | .error e => .error e
  | .ok (c, parsed) => .ok { parsed with correlation := correlate r.syn r.signer c keys }

def Reader.processor (r : Reader) (proc : Processor) : Processor :=
  { proc with parseWithKeys := r.parseWithKeys }

variable {keys : List SigningKey}

theorem findSome_parseVERP (addrs : List Text) (keys : List SigningKey) :
    (addrs.findSome? fun addr => parseVERP signer addr keys) = (addrs.findSome? verpParts).map fun (id, mac) =>
        (id, keys.any fun k => k.secret ≠ [] && mac = verpMAC signer k.secret id) := by
  rw [List.map_findSome?]
  rfl

theorem correlate_named (named : (correlate syn signer c []).tenantID ≠ []) (keys : List SigningKey) :
    correlate syn signer c keys = correlate syn signer c [] := by
  unfold correlate at named ⊢
  rw [findSome_parseVERP] at named
  rw [findSome_parseVERP, findSome_parseVERP]
  cases first : (verpCandidates syn c).findSome? verpParts with
  | none => rfl
  | some found =>
      simp only [first] at named
      exact absurd rfl named

theorem parseSendplaneID_delivery (parsed : parseSendplaneID v = some (tenantID, deliveryID)) : deliveryID ≠ [] := by
  unfold parseSendplaneID at parsed
  split at parsed
  · cases parsed
  · split_ifs at parsed with empty
    cases parsed
    exact empty

/-- A correlation that names a tenant comes from the header, which names a
delivery and is not asked for a signature. -/
theorem correlate_tenant (named : (correlate syn signer c keys).tenantID ≠ []) :
    (correlate syn signer c keys).deliveryID ≠ [] ∧ (correlate syn signer c keys).verified = true := by
  unfold correlate at named ⊢
  split
  next found =>
    simp only [found] at named
    exact absurd rfl named
  next missing =>
    simp only [missing] at named
    split
    next found =>
      obtain ⟨h, _, parsed⟩ := List.exists_of_findSome?_eq_some found
      exact ⟨parseSendplaneID_delivery parsed, rfl⟩
    next missing =>
      simp only [missing] at named
      split
      next found =>
        simp only [found] at named
        exact absurd rfl named
      next missing =>
        simp only [missing] at named
        exact absurd rfl named

theorem Reader.parseWithKeys_keys {reader : Reader} (read : reader.parseWithKeys raw [] = .ok parsed)
    (keys : List SigningKey) : ∃ c classified, reader.read raw = .ok (c, classified) ∧
      parsed = { classified with correlation := correlate reader.syn reader.signer c [] } ∧
      reader.parseWithKeys raw keys =
        .ok { classified with correlation := correlate reader.syn reader.signer c keys } := by
  unfold Reader.parseWithKeys at read ⊢
  split at read
  · cases read
  next c classified readable =>
    exact ⟨c, classified, readable, (Except.ok.inj read).symm, rfl⟩

section

open List

theorem cutLast_eq_some_iff : cutLast sep s = some (front, back) ↔ s = front ++ sep :: back ∧ sep ∉ back := by
  have mirrored : cutLast sep s = (cut s.reverse sep).map fun (back, front) => (front.reverse, back.reverse) := by
    unfold cutLast cut
    cases s.reverse.dropWhile (· ≠ sep) <;> rfl
  rw [mirrored, Option.map_eq_some_iff]
  constructor
  · rintro ⟨⟨left, right⟩, found, same⟩
    cases same
    obtain ⟨split, free⟩ := cut_eq_some found
    exact ⟨by simpa using congrArg reverse split, by simpa using free⟩
  · rintro ⟨rfl, free⟩
    refine ⟨(back.reverse, front.reverse), ?_, by simp⟩
    rw [reverse_append, reverse_cons, append_assoc, singleton_append, cut_append (by simpa using free)]

/-- The part of an address in front of its first `@`. -/
def beforeAt (addr : Text) : Text :=
  addr.takeWhile (· ≠ 64)

theorem verpParts_eq_some_iff {addr id mac : Text} : verpParts addr = some (id, mac) ↔
    beforeAt addr = verpPrefix ++ (id ++ 46 :: mac) ∧ 46 ∉ mac ∧ id ≠ [] ∧ mac ≠ [] := by
  have read : verpParts addr = if !verpPrefix.isPrefixOf (beforeAt addr) then none
      else match cutLast 46 ((beforeAt addr).drop verpPrefix.length) with
        | none | some ([], _) | some (_, []) => none
        | some (id, mac) => some (id, mac) := by
    unfold verpParts cut
    cases dropped : addr.dropWhile (· ≠ 64) with
    | nil =>
        have whole : beforeAt addr = addr := by
          have both := takeWhile_append_dropWhile (p := (· ≠ 64)) (l := addr)
          rwa [dropped, append_nil] at both
        rw [whole]
    | cons at_ rest => rfl
  rw [read]
  split_ifs with foreign
  · constructor
    · exact nofun
    · rintro ⟨split, -⟩
      exact absurd (split ▸ prefix_append _ _) (by simpa [← isPrefixOf_iff_prefix] using foreign)
  · obtain ⟨rest, split⟩ : verpPrefix <+: beforeAt addr := by simpa using foreign
    rw [← split, drop_left, append_cancel_left_eq]
    constructor
    · intro found
      split at found
      any_goals cases found
      next cuts =>
        exact ⟨(cutLast_eq_some_iff.mp cuts).1, (cutLast_eq_some_iff.mp cuts).2, by grind, by grind⟩
    · rintro ⟨rfl, free, named, tagged⟩
      rw [cutLast_eq_some_iff.mpr ⟨rfl, free⟩]
      grind

theorem verpMAC_hex {p : UInt8 → Prop} (digits : ∀ value < 16, p (hexDigit value)) (secret deliveryID : Text) :
    ∀ char ∈ verpMAC signer secret deliveryID, p char :=
  fun char member => forall_mem_hex digits _ char (mem_of_mem_take member)

theorem parseVERP_verified_iff {addr id : Text} : parseVERP signer addr keys = some (id, true) ↔
    ∃ k ∈ keys, k.secret ≠ [] ∧ verpParts addr = some (id, verpMAC signer k.secret id) := by
  unfold parseVERP
  cases verpParts addr with
  | none => simp
  | some found =>
      simp only [Option.map_some, Option.some.injEq, Prod.ext_iff, any_eq_true, Bool.and_eq_true, decide_eq_true_eq]
      constructor
      · rintro ⟨rfl, k, listed, keyed, same⟩
        exact ⟨k, listed, keyed, rfl, same⟩
      · rintro ⟨k, listed, keyed, rfl, same⟩
        exact ⟨rfl, k, listed, keyed, same⟩

theorem beforeAt_append (free : 64 ∉ front) : beforeAt (front ++ 64 :: domain) = front := by
  unfold beforeAt
  rw [takeWhile_append_of_pos]
  · simp
  · intro char member
    exact decide_eq_true fun same => free (same ▸ member)

/-- The return address of a delivery is read back and verified by every list of
keys with the one that signed it, exactly if there is a bounce domain; and only
an address with the tag of the delivery under a key is verified. -/
theorem parseVERP_verpAddress (signer : Signer) (sized : ∀ secret message, (signer.hmac secret message).length = 32) :
    (∀ bounceDomain deliveryID secret keys, deliveryID ≠ [] → 64 ∉ deliveryID → secret ≠ [] →
      (∃ k ∈ keys, k.secret = secret) →
      (parseVERP signer (verpAddress signer bounceDomain deliveryID secret) keys = some (deliveryID, true) ↔
        bounceDomain ≠ [])) ∧ ∀ addr keys id, parseVERP signer addr keys = some (id, true) → ∃ k ∈ keys, k.secret ≠ [] ∧
      beforeAt addr = verpPrefix ++ (id ++ 46 :: verpMAC signer k.secret id) ∧
      (verpMAC signer k.secret id).length = 8 ∧ ∀ char ∈ verpMAC signer k.secret id, isHex char = true := by
  have length : ∀ secret id, (verpMAC signer secret id).length = 8 := by
    intro secret id
    rw [verpMAC, length_take, length_hex, sized]
    decide
  constructor
  · intro bounceDomain deliveryID secret keys named plain keyed listed
    constructor
    · rintro read rfl
      obtain ⟨k, -, -, parts⟩ := parseVERP_verified_iff.mp read
      simp [verpAddress, verpParts_eq_some_iff, beforeAt] at parts
    · intro domain
      obtain ⟨k, member, rfl⟩ := listed
      refine parseVERP_verified_iff.mpr ⟨k, member, keyed, verpParts_eq_some_iff.mpr ⟨?_, ?_, named, ?_⟩⟩
      · rw [verpAddress, if_neg (by simp [domain, named, keyed]), beforeAt_append, append_assoc]
        simp only [mem_append, mem_cons, not_or]
        exact ⟨⟨by decide, plain⟩, by decide, fun at_ => verpMAC_hex (p := (· ≠ 64)) (by decide) _ _ _ at_ rfl⟩
      · exact fun dot => verpMAC_hex (p := (· ≠ 46)) (by decide) _ _ _ dot rfl
      · exact ne_nil_of_length_pos (by rw [length]; decide)
  · intro addr keys id read
    obtain ⟨k, listed, keyed, parts⟩ := parseVERP_verified_iff.mp read
    exact ⟨k, listed, keyed, (verpParts_eq_some_iff.mp parts).1, length _ _, verpMAC_hex (by decide) _ _⟩

def zeroSigner : Signer where
  hmac _ _ := replicate 32 0

def firstKey : SigningKey where
  kid := text "k"
  secret := text "s"

theorem dotted_delivery_verified :
    parseVERP zeroSigner (verpAddress zeroSigner (text "b.example") (text "d.1") (text "s")) [firstKey] =
      some (text "d.1", true) :=
  ((parseVERP_verpAddress zeroSigner fun _ _ => rfl).1 _ _ _ _ (by decide) (by decide) (by decide)
    ⟨firstKey, by decide, rfl⟩).mpr (by decide)

/-- Without a bounce domain there is no address. -/
theorem no_domain_no_address :
    parseVERP zeroSigner (verpAddress zeroSigner [] (text "d.1") (text "s")) [firstKey] = none := by
  decide

end

end Sendplane.Bounce
