import Mathlib.Algebra.GroupWithZero.Nat
import Sendplane.Data.Encoding
import Sendplane.Data.Strings
import Sendplane.Store.Settings

namespace Sendplane.Tracking

open Data Store

inductive TokenError where
  | malformed (detail : Text)
  | unknownKID (kid : Text)
  | badSignature (detail : Text)
deriving DecidableEq

inductive Kind where
  | opened | click | unsubscribe
deriving DecidableEq

def Kind.byte : Kind → UInt8
  | .opened => 1
  | .click => 2
  | .unsubscribe => 3

def Kind.ofByte (byte : UInt8) : Option Kind :=
  if byte = 1 then some .opened
  else if byte = 2 then some .click
  else if byte = 3 then some .unsubscribe
  else none

/-- The destination travels inside the token. -/
def Kind.embedsDest (kind : Kind) : Bool :=
  kind = .unsubscribe

/-- What a token says; it names the tenant whose keys the MAC is checked under. -/
structure TokenPayload where
  tenantID : Text
  deliveryID : Text
  kind : Kind
  linkNo : Int
  dest : Text := []
deriving DecidableEq

def macSize : Nat := 16
def maxTokenFieldLen : Nat := 2 ^ 20
def kidSep : UInt8 := 46

def macContext : Text :=
  text "sendplane/tracking/v1" ++ [0]

def cut (s : Text) (sep : UInt8) : Option (Text × Text) :=
  match s.dropWhile fun char => char ≠ sep with
  | [] => none
  | _ :: rest => some (s.takeWhile fun char => char ≠ sep, rest)

theorem cut_append (free : sep ∉ left) : cut (left ++ sep :: rest) sep = some (left, rest) := by
  have before : ∀ char ∈ left, decide (char ≠ sep) = true := by
    intro char member
    rw [decide_eq_true_iff]
    rintro rfl
    exact free member
  rw [cut, List.dropWhile_append_of_pos before, List.takeWhile_append_of_pos before]
  simp

theorem cut_eq_some (found : cut s sep = some (left, right)) : s = left ++ sep :: right ∧ sep ∉ left := by
  rw [cut] at found
  split at found
  · cases found
  next char rest dropped =>
  cases found
  have here : char = sep := by
    have stopped := List.head?_dropWhile_not (fun char => decide (char ≠ sep)) s
    rw [dropped] at stopped
    simpa using stopped
  constructor
  · rw [← here, ← dropped, here]
    exact (List.takeWhile_append_dropWhile).symm
  · intro listed
    have other := List.all_eq_true.mp List.all_takeWhile sep listed
    exact of_decide_eq_true other rfl

def takeString (b : Text) : Except TokenError (Text × Text) :=
  match uvarint b with
  | none => .error (.malformed (text "truncated field"))
  | some (n, rest) =>
      if n > maxTokenFieldLen then .error (.malformed (text "truncated field"))
      else if n > rest.length then .error (.malformed (text "truncated field"))
      else .ok (rest.take n, rest.drop n)

def decodeBody (body : Text) : Except TokenError TokenPayload := do
  let (tenantID, rest) ← takeString body
  let (deliveryID, rest) ← takeString rest
  match rest with
  | [] => throw (.malformed (text "no kind"))
  | byte :: rest =>
      match varint rest with
      | none => throw (.malformed (text "bad link number"))
      | some (linkNo, rest) =>
          match Kind.ofByte byte with
          | none => throw (.malformed (text "unknown kind " ++ text (toString byte.toNat)))
          | some kind =>
              let (dest, rest) ← if kind.embedsDest then takeString rest else pure ([], rest)
              if rest ≠ [] then throw (.malformed (text (toString rest.length) ++ text " trailing bytes"))
              else return { tenantID, deliveryID, kind, linkNo, dest }

def splitToken (rest : Text) : Except TokenError (Text × Text) :=
  match Base64.decode rest with
  | none => .error (.malformed (text "illegal base64 data"))
  | some raw =>
      if raw.length ≤ macSize then .error (.malformed (text "too short"))
      else .ok (raw.take (raw.length - macSize), raw.drop (raw.length - macSize))

/-- Reads the tenant without checking the MAC. -/
def tenantOf (token : Text) : Except TokenError Text := do
  match cut token kidSep with
  | none => throw (.malformed (text "missing key id"))
  | some (_, rest) =>
      if rest = [] then throw (.malformed (text "missing key id"))
      else
        let (body, _) ← splitToken rest
        let p ← decodeBody body
        if p.tenantID = [] then throw (.malformed (text "no tenant id"))
        else return p.tenantID

def keyByID (keys : List SigningKey) (kid : Text) : Option SigningKey :=
  keys.find? fun k => k.kid = kid && k.secret ≠ []

def appendString (s : Text) : Text :=
  putUvarint s.length ++ s

/-- The keyed hash is a parameter of the signature scheme. -/
structure Signer where
  hmac : Text → Text → Text

/-- Covers every field, the destination included, whichever way it travelled. -/
def Signer.computeMAC (signer : Signer) (secret : Text) (p : TokenPayload) : Text :=
  (signer.hmac secret (macContext ++ appendString p.tenantID ++ appendString p.deliveryID ++
    p.kind.byte :: putVarint p.linkNo ++ appendString p.dest)).take macSize

/-- Checks a token under the tenant's keys; `dest` is the destination that came
with the request. -/
def Signer.verifyDest (signer : Signer) (keys : List SigningKey) (token dest : Text) :
    Except TokenError TokenPayload := do
  match cut token kidSep with
  | none => throw (.malformed (text "missing key id"))
  | some (kid, rest) =>
      if kid = [] ∨ rest = [] then throw (.malformed (text "missing key id"))
      else
        let (body, mac) ← splitToken rest
        let p ← decodeBody body
        if p.kind.embedsDest ∧ dest ≠ [] ∧ dest ≠ p.dest then
          throw (.badSignature (text "destination does not match token"))
        else
          let p := if p.kind.embedsDest then p else { p with dest }
          match keyByID keys kid with
          | none => throw (.unknownKID kid)
          | some key =>
              if mac ≠ signer.computeMAC key.secret p then throw (.badSignature [])
              else return p

open Data.Strings

def encodeBody (p : TokenPayload) : Text :=
  appendString p.tenantID ++ appendString p.deliveryID ++ p.kind.byte :: putVarint p.linkNo ++
    if p.kind.embedsDest then appendString p.dest else []

/-- The token, or nothing when the key or the payload is unusable. -/
def Signer.sign (signer : Signer) (kid secret : Text) (p : TokenPayload) : Text :=
  if kid = [] ∨ kidSep ∈ kid ∨ secret = [] ∨ p.deliveryID = [] ∨ p.tenantID = [] then []
  else kid ++ kidSep :: Base64.encode (encodeBody p ++ signer.computeMAC secret p)

def base (domain : Text) : Text :=
  let d := trimSpace domain
  if d = [] then []
  else trimRight (if contains d (text "://") then d else text "https://" ++ d) 47

def unsubscribeURL (domain token : Text) : Text :=
  if base domain = [] ∨ token = [] then []
  else base domain ++ text "/t/u/" ++ pathEscape token

end Sendplane.Tracking
