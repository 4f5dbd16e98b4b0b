import Sendplane.Data.Decoding
import Sendplane.Tracking.Token

namespace Sendplane.Tracking

open Data Store TokenPayload List

def macInput (p : TokenPayload) : Text :=
  macContext ++ appendString p.tenantID ++ appendString p.deliveryID ++
    p.kind.byte :: putVarint p.linkNo ++ appendString p.dest

theorem computeMAC_eq (signer : Signer) :
    signer.computeMAC secret p = (signer.hmac secret (macInput p)).take macSize := rfl

theorem appendString_append_inj (same : appendString left ++ first = appendString right ++ second) :
    left = right ∧ first = second := by
  rw [appendString, appendString, append_assoc, append_assoc] at same
  obtain ⟨lengths, fields⟩ := putUvarint_append_inj same
  exact append_inj fields lengths

theorem Kind.byte_inj {left right : Kind} (same : left.byte = right.byte) : left = right := by
  cases left <;> cases right <;> first | rfl | exact absurd same (by decide)

variable {p : TokenPayload}

theorem macInput_inj {q : TokenPayload} (same : macInput p = macInput q) : p = q := by
  simp only [macInput, append_assoc, append_cancel_left_eq] at same
  obtain ⟨tenants, same⟩ := appendString_append_inj same
  obtain ⟨deliveries, same⟩ := appendString_append_inj same
  obtain ⟨kinds, same⟩ := cons_eq_cons.mp same
  obtain ⟨links, same⟩ := putVarint_append_inj same
  have padded : appendString p.dest ++ [] = appendString q.dest ++ [] := by rw [append_nil, append_nil, same]
  have dests : p.dest = q.dest := (appendString_append_inj padded).1
  rw [mk.injEq]
  exact ⟨tenants, deliveries, Kind.byte_inj kinds, links, dests⟩

/-- A payload that can be signed and whose fields a reader accepts. -/
structure TokenPayload.Signable (p : TokenPayload) : Prop where
  tenant : p.tenantID ≠ []
  delivery : p.deliveryID ≠ []
  tenantFits : p.tenantID.length ≤ maxTokenFieldLen
  deliveryFits : p.deliveryID.length ≤ maxTokenFieldLen
  destFits : p.dest.length ≤ maxTokenFieldLen
  linkLow : -2 ^ 63 ≤ p.linkNo
  linkHigh : p.linkNo < 2 ^ 63

theorem takeString_appendString (rest : Text) (fits : s.length ≤ maxTokenFieldLen) :
    takeString (appendString s ++ rest) = .ok (s, rest) := by
  have bound : s.length < 2 ^ 64 := Nat.lt_of_le_of_lt fits (by decide)
  rw [takeString, appendString, append_assoc, uvarint_putUvarint bound]
  simp [Nat.not_lt.mpr fits]

@[simp] theorem Kind.ofByte_byte (kind : Kind) : Kind.ofByte kind.byte = some kind := by
  cases kind <;> rfl

/-- What of the payload is in the token. -/
def TokenPayload.carried (p : TokenPayload) : TokenPayload :=
  { p with dest := if p.kind.embedsDest then p.dest else [] }

/-- The payload that a verifier is asked about: the destination of the request
counts unless the token brings its own. -/
def TokenPayload.withDest (p : TokenPayload) (dest : Text) : TokenPayload :=
  if p.kind.embedsDest then p else { p with dest }

theorem decodeBody_encodeBody (signable : p.Signable) : decodeBody (encodeBody p) = .ok p.carried := by
  rw [encodeBody, decodeBody, append_assoc, append_assoc, takeString_appendString _ signable.tenantFits]
  simp only [bind, Except.bind]
  rw [takeString_appendString _ signable.deliveryFits]
  simp only [cons_append, varint_putVarint signable.linkLow signable.linkHigh, Kind.ofByte_byte, carried]
  by_cases embeds : p.kind.embedsDest = true
  · have read := takeString_appendString [] signable.destFits
    rw [append_nil] at read
    simp only [embeds, if_true, read, ne_eq, not_true_eq_false]
    rfl
  · simp [embeds, pure, Except.pure]

theorem splitToken_encode (nonempty : body ≠ []) (sized : mac.length = macSize) :
    splitToken (Base64.encode (body ++ mac)) = .ok (body, mac) := by
  have longer : ¬(body ++ mac).length ≤ macSize := by
    have := length_pos_iff.mpr nonempty
    rw [length_append]
    omega
  have body_length : (body ++ mac).length - macSize = body.length := by
    rw [length_append]
    omega
  simp only [splitToken, Base64.decode_encode, longer, if_false, body_length, take_left, drop_left]

theorem encodeBody_ne_nil : encodeBody p ≠ [] := by
  simp [encodeBody]

section

variable {signer : Signer} (sized : ∀ secret input, (signer.hmac secret input).length = 32)
include sized

theorem computeMAC_length : (signer.computeMAC secret p).length = macSize := by
  rw [computeMAC_eq, length_take, sized]
  rfl

theorem splitToken_sign (secret : Text) (p : TokenPayload) :
    splitToken (Base64.encode (encodeBody p ++ signer.computeMAC secret p)) =
      .ok (encodeBody p, signer.computeMAC secret p) :=
  splitToken_encode encodeBody_ne_nil (computeMAC_length sized)

variable {kid secret : Text} {p : TokenPayload} (kidNonempty : kid ≠ []) (kidFree : kidSep ∉ kid)
  (secretNonempty : secret ≠ []) (signable : p.Signable)
include kidNonempty kidFree secretNonempty signable

omit sized in
theorem sign_eq :
    signer.sign kid secret p = kid ++ kidSep :: Base64.encode (encodeBody p ++ signer.computeMAC secret p) := by
  rw [Signer.sign]
  simp [kidNonempty, kidFree, secretNonempty, signable.delivery, signable.tenant]

theorem tenantOf_sign : tenantOf (signer.sign kid secret p) = .ok p.tenantID := by
  have nonempty : Base64.encode (encodeBody p ++ signer.computeMAC secret p) ≠ [] :=
    Base64.encode_ne_nil (by simp [encodeBody_ne_nil])
  have split := splitToken_sign sized secret p
  have named : p.carried.tenantID ≠ [] := signable.tenant
  rw [sign_eq kidNonempty kidFree secretNonempty signable, tenantOf, cut_append kidFree]
  simp only [nonempty, split, bind, Except.bind, decodeBody_encodeBody signable, named]
  rfl

/-- What a verifier says about an issued token is decided by the destination
that comes with it and by the key of that name. -/
theorem verifyDest_sign {keys : List SigningKey} (dest : Text) {key : SigningKey}
    (found : keyByID keys kid = some key) (agrees : p.kind.embedsDest → dest = [] ∨ dest = p.dest) :
    signer.verifyDest keys (signer.sign kid secret p) dest =
      if signer.computeMAC secret p ≠ signer.computeMAC key.secret (p.withDest dest) then .error (.badSignature [])
      else .ok (p.withDest dest) := by
  have nonempty : Base64.encode (encodeBody p ++ signer.computeMAC secret p) ≠ [] :=
    Base64.encode_ne_nil (by simp [encodeBody_ne_nil])
  have split := splitToken_sign sized secret p
  rw [sign_eq kidNonempty kidFree secretNonempty signable, Signer.verifyDest, cut_append kidFree]
  simp only [kidNonempty, nonempty, split, bind, Except.bind, decodeBody_encodeBody signable, found]
  have accepted : ¬(p.carried.kind.embedsDest = true ∧ dest ≠ [] ∧ dest ≠ p.carried.dest) := by
    rintro ⟨embeds, given, other⟩
    have own : p.carried.dest = p.dest := if_pos embeds
    rcases agrees embeds with none | same
    · exact given none
    · exact other (same.trans own.symm)
  have asked : (if p.carried.kind.embedsDest = true then p.carried else { p.carried with dest }) = p.withDest dest := by
    by_cases embeds : p.kind.embedsDest = true
    · simp [carried, withDest, embeds]
    · simp only [carried, withDest, embeds]
      rfl
  rw [if_neg accepted, asked]
  rfl

end

variable {keys : List SigningKey} {key : SigningKey}

theorem keyByID_of_unique (member : key ∈ keys) (usable : key.secret ≠ [])
    (unique : ∀ other ∈ keys, other.kid = key.kid → other = key) : keyByID keys key.kid = some key := by
  cases found : keyByID keys key.kid with
  | none =>
      have missed := find?_eq_none.mp found key member
      simp [usable] at missed
  | some other =>
      have matching := find?_some found
      simp only [Bool.and_eq_true, decide_eq_true_eq] at matching
      rw [unique other (mem_of_find?_eq_some found) matching.1]

theorem unique_of_perm {others presented : List SigningKey} (distinct : (keys.map SigningKey.kid).Nodup)
    (member : key ∈ keys) (fresh : ∀ other ∈ others, other.kid ≠ key.kid) (perm : presented.Perm (keys ++ others)) :
    key ∈ presented ∧ ∀ other ∈ presented, other.kid = key.kid → other = key := by
  refine ⟨perm.mem_iff.mpr (mem_append_left _ member), ?_⟩
  intro other presentedOther same
  rcases mem_append.mp (perm.mem_iff.mp presentedOther) with own | added
  · exact inj_on_of_nodup_map distinct own member same
  · exact absurd same (fresh other added)

/-- A token that was issued under one of the tenant's keys verifies as the
payload it was issued for, in whatever order and company the keys are presented,
and names the tenant.  Without its destination a click token is refused. -/
theorem sign_roundtrip (signer : Signer) (sized : ∀ secret input, (signer.hmac secret input).length = 32)
    (keys others presented : List SigningKey) (key : SigningKey) (p : TokenPayload)
    (distinct : (keys.map SigningKey.kid).Nodup) (member : key ∈ keys)
    (fresh : ∀ other ∈ others, other.kid ≠ key.kid) (perm : presented.Perm (keys ++ others))
    (secretNonempty : key.secret ≠ []) (kidNonempty : key.kid ≠ []) (kidFree : kidSep ∉ key.kid)
    (signable : p.Signable) :
    signer.sign key.kid key.secret p ≠ [] ∧
    signer.verifyDest presented (signer.sign key.kid key.secret p) p.dest = .ok p ∧
    (p.kind.embedsDest → signer.verifyDest presented (signer.sign key.kid key.secret p) [] = .ok p) ∧
    tenantOf (signer.sign key.kid key.secret p) = .ok p.tenantID ∧ (p.kind = .click → p.dest ≠ [] →
      -- The truncated hash tells the payload from the one without destination.
      (signer.computeMAC key.secret p = signer.computeMAC key.secret { p with dest := [] } →
        macInput p = macInput { p with dest := [] }) →
      ∃ e, signer.verifyDest presented (signer.sign key.kid key.secret p) [] = .error e) := by
  obtain ⟨presentedKey, unique⟩ := unique_of_perm distinct member fresh perm
  have found := keyByID_of_unique presentedKey secretNonempty unique
  have verify (dest : Text) := verifyDest_sign sized kidNonempty kidFree secretNonempty signable dest found
  refine ⟨?_, ?_, ?_, tenantOf_sign sized kidNonempty kidFree secretNonempty signable, ?_⟩
  · rw [sign_eq kidNonempty kidFree secretNonempty signable]
    simp
  · have asked : p.withDest p.dest = p := by simp [withDest]
    rw [verify _ fun _ => .inr rfl, asked, if_neg (not_not_intro rfl)]
  · intro embeds
    have asked : p.withDest [] = p := if_pos embeds
    rw [verify _ fun _ => .inl rfl, asked, if_neg (not_not_intro rfl)]
  · intro click given injective
    have external : ¬p.kind.embedsDest = true := by rw [click]; decide
    have asked : p.withDest [] = { p with dest := [] } := if_neg external
    rw [verify _ fun embeds => absurd embeds external, asked, if_pos]
    · exact ⟨_, rfl⟩
    · intro same
      have payloads := macInput_inj (injective same)
      exact given (congrArg dest payloads)

def lastBytes : Signer where
  hmac _ input := (input.reverse ++ List.replicate 32 0).take 32

theorem lastBytes_length (secret input : Text) : (lastBytes.hmac secret input).length = 32 := by
  simp [lastBytes]

theorem sign_roundtrip_click :
    ∃ e, lastBytes.verifyDest [{ kid := text "b", secret := [2] }, { kid := text "a", secret := [1] }]
      (lastBytes.sign (text "a") [1]
        { tenantID := text "t", deliveryID := text "d", kind := .click, linkNo := 3, dest := text "u" }) [] =
      .error e :=
  (sign_roundtrip lastBytes lastBytes_length [{ kid := text "a", secret := [1] }]
    [{ kid := text "b", secret := [2] }] [{ kid := text "b", secret := [2] }, { kid := text "a", secret := [1] }]
    { kid := text "a", secret := [1] }
    { tenantID := text "t", deliveryID := text "d", kind := .click, linkNo := 3, dest := text "u" }
    (by decide) (by decide) (by decide) (List.Perm.swap _ _ _) (by decide) (by decide) (by decide)
    ⟨by decide, by decide, by decide, by decide, by decide, by decide, by decide⟩).2.2.2.2 rfl (by decide)
    (fun same => absurd same (by decide +kernel))

end Sendplane.Tracking
