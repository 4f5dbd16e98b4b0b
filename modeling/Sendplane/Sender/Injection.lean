import Sendplane.Data.Checks
import Sendplane.Sender.Message

namespace Sendplane.Sender.Message

open Data Data.Strings Store Sendplane.Tracking Checks List
open Sendplane.Render (Output)
open Sender.Process (HookError UnsubscribeLinks)

def Field.texts (field : Field) : List Text :=
  field.name :: match field.value with
    | .text value => [value]
    | .address name email => [name, email]
    | .date _ => []

def Field.Broken (field : Field) : Prop :=
  ∃ part ∈ field.texts, HasLineBreak part

def reservedFields : List Text :=
  ["from", "to", "subject", "date", "message-id", "return-path", "reply-to", "list-unsubscribe",
    "list-unsubscribe-post", "x-sendplane-id", "x-sendplane-attempt"].map text

/-- No line break, only the sender's own values, and probe headers on the probe lane only. -/
structure Sealed (d : Delivery) (input : MessageInput) : Prop where
  unbroken : ∀ field ∈ headerFields input, ¬field.Broken
  reserved : ∀ field ∈ headerFields input, foldName field.name ∈ reservedFields → field ∈ senderFields input
  probe : ∀ field ∈ headerFields input, foldName field.name = foldName headerProbe → d.lane = .probe

/-- What the check after the hook does not look at. -/
structure Clean (d : Delivery) (input : MessageInput) : Prop where
  unsubscribe : ¬HasLineBreak input.listUnsubscribe
  tenant : ¬HasLineBreak input.msg.tenantID
  delivery : ¬HasLineBreak input.msg.deliveryID
  messageID : ¬HasLineBreak d.id
  probe : ∀ header ∈ input.msg.headers.toList, foldName header.1 = foldName headerProbe → d.lane = .probe

/-- Nothing that the check covers has a line break. -/
structure Checked (m : OutboundMessage) : Prop where
  subject : ¬HasLineBreak m.subject
  fromName : ¬HasLineBreak m.fromName
  name : ¬HasLineBreak m.recipient.name
  source : ¬HasLineBreak m.source
  replyTo : ¬HasLineBreak m.replyTo
  email : ¬HasLineBreak m.recipient.email
  headers : ∀ header ∈ m.headers.toList,
    ¬HasLineBreak header.1 ∧ ¬HasLineBreak header.2 ∧ foldName header.1 ∉ headersSetBySender

theorem checkLine_ok (passed : checkLine name value = .ok ()) : ¬HasLineBreak value := by
  unfold checkLine at passed
  split at passed
  · cases passed
  · rename_i clean
    exact clean

variable {c : Composer}

theorem checkAddress_ok (passed : checkAddress c required name value = .ok ()) : ¬HasLineBreak value := by
  unfold checkAddress at passed
  split at passed
  · rename_i empty
    rw [empty]
    decide
  split at passed
  · cases passed
  · rename_i clean
    exact clean

theorem checked_of_validateOutbound (passed : validateOutbound c m = .ok ()) : Checked m := by
  obtain ⟨⟨⟩, subject, passed⟩ := bind_ok passed
  obtain ⟨⟨⟩, fromName, passed⟩ := bind_ok passed
  obtain ⟨⟨⟩, name, passed⟩ := bind_ok passed
  obtain ⟨⟨⟩, -, passed⟩ := bind_ok passed
  obtain ⟨⟨⟩, source, passed⟩ := bind_ok passed
  obtain ⟨⟨⟩, replyTo, passed⟩ := bind_ok passed
  obtain ⟨⟨⟩, email, headers⟩ := bind_ok passed
  exact {
    subject := checkLine_ok subject
    fromName := checkLine_ok fromName
    name := checkLine_ok name
    source := checkAddress_ok source
    replyTo := checkAddress_ok replyTo
    email := checkAddress_ok email
    headers := fun header member => validateCustomHeader_ok (forM_ok headers header member) }

variable {input : MessageInput}

theorem validateOutbound_of_buildMessage (built : buildMessage c input = .ok raw) :
    validateOutbound c input.msg = .ok () := by
  unfold buildMessage at built
  dsimp only at built
  split at built
  · cases built
  cases checked : validateOutbound c input.msg with
  | ok passed => rfl
  | error e =>
      rw [checked] at built
      cases built

theorem itoa_unbroken : ¬HasLineBreak (itoa value) := by
  have digits : ¬HasLineBreak (decimal value.natAbs) := by
    intro broken
    rcases hasLineBreak_iff.mp broken with cr | lf
    · have digit := decimal_digit cr
      simp at digit
    · have digit := decimal_digit lf
      simp at digit
  unfold itoa
  split
  · intro broken
    rw [hasLineBreak_iff] at broken digits
    simp_all
  · exact digits

theorem broken_text : Field.Broken ⟨name, .text value⟩ ↔ HasLineBreak name ∨ HasLineBreak value := by
  simp [Field.Broken, Field.texts]

theorem broken_address :
    Field.Broken ⟨field, .address name email⟩ ↔ HasLineBreak field ∨ HasLineBreak name ∨ HasLineBreak email := by
  simp [Field.Broken, Field.texts]

def senderNames : List Text :=
  ["Date", "From", "To", "Reply-To", "Subject", "Message-ID", "X-Sendplane-ID", "X-Sendplane-Attempt",
    "Precedence", "X-Auto-Response-Suppress", "List-Unsubscribe", "List-Unsubscribe-Post"].map text

theorem senderNames_plain : ∀ name ∈ senderNames, ¬HasLineBreak name ∧ foldName name ≠ foldName headerProbe := by
  decide +kernel

/-- One of the fields that the sender sets, by what it is set from. -/
inductive Origin (input : MessageInput) : Field → Prop where
  | date {moment} : Origin input ⟨text "Date", .date moment⟩
  | source : Origin input ⟨text "From", .address input.msg.fromName input.msg.source⟩
  | recipient : Origin input ⟨text "To", .address input.msg.recipient.name input.msg.recipient.email⟩
  | replyTo : Origin input ⟨text "Reply-To", .address [] input.msg.replyTo⟩
  | subject : Origin input ⟨text "Subject", .text input.msg.subject⟩
  | messageID : Origin input ⟨text "Message-ID", .text input.messageID⟩
  | sendplaneID : Origin input ⟨headerSendplaneID, .text (input.msg.tenantID ++ text "/" ++ input.msg.deliveryID)⟩
  | attempt : Origin input ⟨headerAttempt, .text (itoa input.attemptNo)⟩
  | precedence : Origin input ⟨text "Precedence", .text (text "bulk")⟩
  | autoResponse : Origin input ⟨text "X-Auto-Response-Suppress", .text (text "All")⟩
  | unsubscribe : Origin input ⟨text "List-Unsubscribe", .text input.listUnsubscribe⟩
  | oneClick : Origin input ⟨text "List-Unsubscribe-Post", .text (text "List-Unsubscribe=One-Click")⟩

variable {field : Field}

theorem origin_of_mem (member : field ∈ senderFields input) : Origin input field := by
  simp only [senderFields, mem_append, mem_cons, not_mem_nil, or_false] at member
  rcases member with ((((rfl | rfl | rfl) | replyTo) | (rfl | rfl | rfl | rfl)) | bulk) | unsubscribe
  · exact .date
  · exact .source
  · exact .recipient
  · split at replyTo
    · cases mem_singleton.mp replyTo
      exact .replyTo
    · cases replyTo
  · exact .subject
  · exact .messageID
  · exact .sendplaneID
  · exact .attempt
  · split at bulk
    · simp only [mem_cons, not_mem_nil, or_false] at bulk
      rcases bulk with rfl | rfl
      · exact .precedence
      · exact .autoResponse
    · cases bulk
  · split at unsubscribe
    · rcases mem_cons.mp unsubscribe with rfl | post
      · exact .unsubscribe
      · split at post
        · cases mem_singleton.mp post
          exact .oneClick
        · cases post
    · cases unsubscribe

theorem Origin.name_mem (origin : Origin input field) : field.name ∈ senderNames := by
  cases origin <;> simp [senderNames, headerSendplaneID, headerAttempt]

variable {d : Delivery}

/-- A broken field of the sender is one whose source the check does not cover. -/
theorem Origin.unbroken (origin : Origin input field) (checked : Checked input.msg) (clean : Clean d input)
    (messageID : ¬HasLineBreak input.messageID) : ¬field.Broken := by
  have name := (senderNames_plain _ origin.name_mem).1
  cases origin with
  | date => simpa [Field.Broken, Field.texts] using name
  | source => exact fun broken => (broken_address.mp broken).elim name (·.elim checked.fromName checked.source)
  | recipient => exact fun broken => (broken_address.mp broken).elim name (·.elim checked.name checked.email)
  | replyTo => exact fun broken => (broken_address.mp broken).elim name (·.elim (by decide) checked.replyTo)
  | subject => exact fun broken => (broken_text.mp broken).elim name checked.subject
  | messageID => exact fun broken => (broken_text.mp broken).elim name messageID
  | sendplaneID =>
      intro broken
      rcases broken_text.mp broken with inName | inValue
      · exact name inName
      rcases hasLineBreak_append.mp inValue with inTenant | inDelivery
      · rcases hasLineBreak_append.mp inTenant with inID | inSlash
        · exact clean.tenant inID
        · exact absurd inSlash (by decide)
      · exact clean.delivery inDelivery
  | attempt => exact fun broken => (broken_text.mp broken).elim name itoa_unbroken
  | precedence | autoResponse | oneClick => exact fun broken => (broken_text.mp broken).elim name (by decide)
  | unsubscribe => exact fun broken => (broken_text.mp broken).elim name clean.unsubscribe

theorem domainOf_unbroken (clean : ¬HasLineBreak addr) : ¬HasLineBreak (domainOf c addr) := by
  unfold domainOf
  split
  · rename_i mailbox domain found
    have inside : domain ⊆ addr := by
      unfold cutLast at found
      split at found
      · cases found
      · cases found
        intro char member
        exact mem_reverse.mp ((takeWhile_sublist _).subset (mem_reverse.mp member))
    split
    · exact fun broken => clean (hasLineBreak_of_subset inside (c.toLower_lineBreak broken))
    · decide
  · decide

theorem reserved_of_sender : ∀ name ∈ reservedFields, name ∈ headersSetBySender := by
  decide +kernel

theorem mem_customFields (member : field ∈ customFields m) :
    ∃ header ∈ m.headers.toList, field = ⟨header.1, .text header.2⟩ := by
  obtain ⟨header, listed, rfl⟩ := mem_map.mp member
  exact ⟨header, listed, rfl⟩

theorem sealed_of_clean (checked : Checked input.msg) (messageID : ¬HasLineBreak input.messageID)
    (clean : Clean d input) : Sealed d input where
  unbroken field member := by
    rcases mem_append.mp member with own | custom
    · exact (origin_of_mem own).unbroken checked clean messageID
    · obtain ⟨header, listed, rfl⟩ := mem_customFields custom
      obtain ⟨name, value, -⟩ := checked.headers header listed
      exact fun broken => (broken_text.mp broken).elim name value
  reserved field member reserved := by
    rcases mem_append.mp member with own | custom
    · exact own
    · obtain ⟨header, listed, rfl⟩ := mem_customFields custom
      exact absurd (reserved_of_sender _ reserved) (checked.headers header listed).2.2
  probe field member named := by
    rcases mem_append.mp member with own | custom
    · exact absurd named (senderNames_plain _ (origin_of_mem own).name_mem).2
    · obtain ⟨header, listed, rfl⟩ := mem_customFields custom
      exact clean.probe header listed named

/-- What comes from outside and is not checked: the URLs and the tracking domain,
the IDs, and the headers, has no line breaks, and only a probe is given a probe
field.  A hook may leave IDs and headers of its own. -/
structure Harmless (c : Composer) (settings : TenantSettings) (tenantID : Text) (d : Delivery)
    (left : OutboundMessage) : Prop where
  link : ¬HasLineBreak d.unsubscribeURL
  varsLink : ∀ url ∈ c.stringVar d.vars (text "unsubscribe_url"), ¬HasLineBreak url
  hookLink : ∀ hook ∈ c.unsubscribeHook, ∀ url, hook (recipientContext tenantID d) = .ok url → ¬HasLineBreak url
  domain : ¬HasLineBreak (trimSpace settings.tracking.domain)
  tenant : ¬HasLineBreak tenantID
  delivery : ¬HasLineBreak d.id
  probe : d.lane ≠ .probe → (∀ token ∈ c.stringVar d.vars (text "probe_token"), token = []) ∧
    ∀ header ∈ (c.headersOf d.headers).toList, foldName header.1 ≠ foldName headerProbe
  hooked : c.beforeSend.isSome = true → ¬HasLineBreak left.tenantID ∧ ¬HasLineBreak left.deliveryID ∧
    (d.lane ≠ .probe → ∀ header ∈ left.headers.toList, foldName header.1 ≠ foldName headerProbe)

section Outside

variable {settings : TenantSettings} {tenantID : Text} {left : OutboundMessage}
  (harmless : Harmless c settings tenantID d left)
include harmless

/-- A URL from the template is checked, every other one is harmless. -/
theorem dest_unbroken (resolved : unsubscribeDest c settings d campaign (recipientContext tenantID d) = .ok dest) :
    ¬HasLineBreak dest := by
  have empty : ¬HasLineBreak [] := by decide
  unfold unsubscribeDest at resolved
  split at resolved
  · cases resolved
    exact empty
  split at resolved
  · cases resolved
    exact harmless.link
  dsimp only at resolved
  split at resolved
  · cases resolved
    cases given : c.stringVar d.vars (text "unsubscribe_url") with
    | none => exact empty
    | some url => exact harmless.varsLink url given
  -- The rest of the function stands in both branches of the template.
  obtain ⟨url, rendered, resolved⟩ := bind_ok ((apply_ite (Bind.bind · _) _ _ _).trans resolved)
  have unbroken : ¬HasLineBreak url := by
    split at rendered
    · unfold renderUnsubscribeTemplate at rendered
      split at rendered
      · cases rendered
      dsimp only at rendered
      split at rendered
      · cases rendered
      · rename_i unbroken
        cases rendered
        exact unbroken
    · cases rendered
      exact empty
  split at resolved
  · cases resolved
    exact unbroken
  split at resolved
  · rename_i hook given
    exact harmless.hookLink hook given dest resolved
  · cases resolved
    exact empty

theorem base_unbroken : ¬HasLineBreak (base settings.tracking.domain) := by
  unfold base
  dsimp only
  split
  · decide
  · refine fun broken => ?_
    have whole := hasLineBreak_of_subset (fun byte member => mem_reverse.mp
      ((dropWhile_sublist _).subset (mem_reverse.mp member))) broken
    split at whole
    · exact harmless.domain whole
    · rw [hasLineBreak_append] at whole
      exact whole.elim (by decide) harmless.domain

theorem header_unbroken (unbroken : ¬HasLineBreak dest) (key : Option SigningKey) :
    ¬HasLineBreak (unsubscribeLinks c settings tenantID d dest key).header := by
  have url : ∀ token, ¬HasLineBreak (unsubscribeURL settings.tracking.domain token) := by
    intro token
    unfold unsubscribeURL
    split
    · decide
    · rw [hasLineBreak_append, hasLineBreak_append, not_or, not_or]
      exact ⟨⟨base_unbroken harmless, by decide⟩, pathEscape_unbroken token⟩
  have empty : ¬HasLineBreak [] := by decide
  unfold unsubscribeLinks
  dsimp only
  repeat' split
  all_goals first
    | exact empty
    | exact unbroken
    | exact url _

theorem outboundHeaders_unprobed (mailing : d.lane ≠ .probe) :
    ∀ header ∈ (outboundHeaders c d).toList, foldName header.1 ≠ foldName headerProbe := by
  obtain ⟨token, headers⟩ := harmless.probe mailing
  unfold outboundHeaders
  split
  · rename_i value given
    rw [if_pos (token value given)]
    exact headers
  · exact headers

end Outside

theorem clean_of_harmless (composed : messageFor c settings tenantID now d r dkim = .ok input)
    (harmless : Harmless c settings tenantID d input.msg) : Clean d input := by
  unfold messageFor at composed
  split at composed
  · cases composed
  rename_i msg unsub rendered
  split at composed
  · cases composed
  rename_i left after
  cases composed
  obtain ⟨links, linked, rendered⟩ := bind_ok rendered
  obtain ⟨out, -, rendered⟩ := bind_ok rendered
  cases rendered
  have unsubscribe : ¬HasLineBreak unsub.header := by
    unfold linksFor at linked
    split at linked
    · cases linked
      decide
    · obtain ⟨dest, resolved, linked⟩ := bind_ok linked
      cases linked
      exact header_unbroken harmless (dest_unbroken harmless resolved) _
  unfold hooked at after
  split at after
  · cases after
    refine ⟨unsubscribe, harmless.tenant, harmless.delivery, harmless.delivery, fun header listed named => ?_⟩
    by_contra mailing
    exact outboundHeaders_unprobed harmless mailing header listed named
  · rename_i hook given
    obtain ⟨tenant, delivery, headers⟩ := harmless.hooked (by rw [given]; rfl)
    refine ⟨unsubscribe, tenant, delivery, harmless.delivery, fun header listed named => ?_⟩
    by_contra mailing
    exact headers mailing header listed named

/-- Every address is fine and every message can be written; the variables are
the same for every delivery. -/
def plainComposer (vars : List (Text × Text)) (hook : Option (OutboundMessage → Except HookError OutboundMessage)) :
    Composer where
  lower := id
  lower_control _ _ _ member := member
  quote := id
  parseAddress addr := .ok addr
  toASCII domain := .ok domain
  address _ _ := none
  writeTo _ _ := .ok []
  signDKIM _ raw := .ok raw
  signer := { hmac := fun _ _ => [] }
  stringVar _ key := vars.lookup key
  headersOf _ := ∅
  urlTemplate _ _ _ := .ok []
  unsubscribeHook := none
  beforeSend := hook

def hostLinks : TenantSettings := { unsubscribeMode := .host }

def greeting : Rendering where
  identity := { email := text "news@example.org" }
  parts _ := .ok { subject := text "Hello", html := [], text := text "Hello" }

def ownLink (msg : OutboundMessage) : Except HookError OutboundMessage :=
  .ok { msg with
    headers := msg.headers.insert (text "X-List") (text "news"), unsubscribeURL := text "https://example.org/u" }

def plainDelivery : Delivery where
  id := text "d1"
  email := text "ann@example.org"

def builds (c : Composer) : Option MessageInput :=
  match messageFor c hostLinks (text "t1") 1 plainDelivery greeting none with
  | .error _ => none
  | .ok input =>
      match buildMessage c input with
      | .error _ => none
      | .ok _ => some input

end Sendplane.Sender.Message
