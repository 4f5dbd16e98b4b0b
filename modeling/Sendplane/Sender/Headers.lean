import Sendplane.Data.Strings
import Sendplane.Store.Basic

namespace Sendplane.Sender

open Data Data.Strings Store

inductive HeaderError where
  | injection (detail : Text)
  | notAllowed (detail : Text)
deriving DecidableEq

def HeaderError.message : HeaderError → Text
  | .injection detail => text "sender: header injection: " ++ detail
  | .notAllowed detail => text "sender: header not allowed: " ++ detail

def headerSendplaneID : Text := text "X-Sendplane-ID"
def headerAttempt : Text := text "X-Sendplane-Attempt"
def headerProbe : Text := text "X-Sendplane-Probe"

def allowedCustomHeaders : List Text :=
  ["in-reply-to", "references", "auto-submitted", "precedence", "list-id", "list-help", "list-post",
    "list-owner", "list-archive", "importance", "priority"].map text

def headersSetBySender : List Text :=
  ["from", "to", "cc", "bcc", "subject", "date", "message-id", "mime-version", "content-type",
    "content-transfer-encoding", "return-path", "reply-to", "list-unsubscribe", "list-unsubscribe-post",
    "x-sendplane-id", "x-sendplane-attempt"].map text

/-- The check that every header from outside passes. -/
def validateCustomHeader (tables : Unicode) (name value : Text) : Except HeaderError Unit :=
  if containsAny value (text "\r\n") then
    .error (.injection (text "header " ++ tables.quote name ++ text " value contains CR or LF"))
  else
    let lower := tables.toLower (trimSpace name)
    if lower = [] ∨ lower ≠ name ∧ containsAny name (text "\r\n: ") then
      .error (.injection (text "header name " ++ tables.quote name))
    else if containsAny name (text "\r\n:") ∨ containsAny name (text " \t") then
      .error (.injection (text "header name " ++ tables.quote name))
    else if lower ∈ headersSetBySender then
      .error (.notAllowed (tables.quote name ++ text " is set by sendplane"))
    else if (text "x-").isPrefixOf lower ∨ lower ∈ allowedCustomHeaders then .ok ()
    else .error (.notAllowed (tables.quote name))

/-- Header names are compared without regard to ASCII case. -/
def foldName (name : Text) : Text :=
  name.map lowerByte

theorem visible_of_lowerByte {char : UInt8} (shown : visible (lowerByte char) = true) : visible char = true := by
  by_cases upper : 65 ≤ char ∧ char ≤ 90
  · obtain ⟨low, high⟩ := upper
    simp only [visible, Bool.and_eq_true, decide_eq_true_eq]
    simp only [UInt8.le_iff_toNat_le, UInt8.lt_iff_toNat_lt, UInt8.reduceToNat] at low high ⊢
    omega
  · rwa [lowerByte, if_neg upper] at shown

theorem isASCII_of_visible (plain : ∀ char ∈ s, visible char = true) : isASCII s = true := by
  rw [isASCII, List.all_eq_true]
  intro char mem
  have shown := plain char mem
  simp only [visible, Bool.and_eq_true] at shown
  exact shown.2

theorem lower_of_fold_visible (tables : Unicode) (plain : ∀ char ∈ foldName name, visible char = true) :
    tables.toLower (trimSpace name) = foldName name := by
  have shown : ∀ char ∈ name, visible char = true := fun char mem =>
    visible_of_lowerByte (plain _ (List.mem_map_of_mem mem))
  rw [trimSpace_of_visible shown, Unicode.toLower, if_pos (isASCII_of_visible shown), foldName]

theorem headersSetBySender_visible : ∀ name ∈ headersSetBySender, ∀ char ∈ name, visible char = true := by
  have checked : headersSetBySender.all (fun name => name.all visible) = true := by decide +kernel
  intro name reserved
  exact List.all_eq_true.mp (List.all_eq_true.mp checked name reserved)

theorem validateCustomHeader_ok (accepted : validateCustomHeader tables name value = .ok ()) :
    ¬HasLineBreak name ∧ ¬HasLineBreak value ∧ foldName name ∉ headersSetBySender := by
  unfold validateCustomHeader at accepted
  split at accepted
  · cases accepted
  rename_i cleanValue
  dsimp only at accepted
  split at accepted
  · cases accepted
  split at accepted
  · cases accepted
  rename_i cleanName
  split at accepted
  · cases accepted
  rename_i foreign
  refine ⟨fun broken => cleanName (.inl ?_), cleanValue, fun reserved => foreign ?_⟩
  · simp only [HasLineBreak, containsAny, List.any_eq_true] at broken ⊢
    obtain ⟨char, mem, isBreak⟩ := broken
    simp only [lineBreaks, List.contains_eq_mem, List.mem_cons, List.not_mem_nil, or_false,
      decide_eq_true_eq] at isBreak
    exact ⟨char, mem, by rcases isBreak with rfl | rfl <;> decide⟩
  · rwa [lower_of_fold_visible tables (headersSetBySender_visible _ reserved)]

end Sendplane.Sender
