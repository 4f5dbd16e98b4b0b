import Sendplane.Data.Strings
import Sendplane.Store.Basic

namespace Sendplane.Store

open Data.Strings

/-- The address grammar and the encoding of international domain names. -/
structure MailSyntax extends Unicode where
  /-- The bare address of what a header field may hold. -/
  parseAddress : Text → Except Text Text
  toASCII : Text → Except Text Text

def cutLast (sep : UInt8) (s : Text) : Option (Text × Text) :=
  match s.reverse.dropWhile (· ≠ sep) with
  | [] => none
  | _ :: rest => some (rest.reverse, (s.reverse.takeWhile (· ≠ sep)).reverse)

/-- The form under which addresses are compared. -/
def MailSyntax.normalizeEmail (syn : MailSyntax) (s : Text) : Except Err Text :=
  if containsAny s (text "\r\n") then .error (.wrap .invalid (text "email contains CR or LF"))
  else
    let s := trimSpace s
    if s = [] then .error (.wrap .invalid (text "empty email"))
    else match syn.parseAddress s with
      | .error detail => .error (.wrap .invalid (text "email " ++ syn.quote s ++ text ": " ++ detail))
      | .ok address =>
          match cutLast 64 address with
          | none | some ([], _) | some (_, []) =>
              .error (.wrap .invalid (text "email " ++ syn.quote s ++ text " has no domain"))
          | some (mailbox, domain) =>
              match syn.toASCII (syn.toLower domain) with
              | .error detail =>
                  .error (.wrap .invalid (text "email " ++ syn.quote s ++ text " domain: " ++ detail))
              | .ok ascii => .ok (syn.toLower mailbox ++ 64 :: ascii)

end Sendplane.Store
