import Sendplane.Render.Rewriting

namespace Sendplane.Console

open Data.Strings Store Sendplane.Render List

/-! # The Liquid of an exported document

The console finds the constructs with a pattern in which the first closing
delimiter wins; the scanner of the server skips quoted strings.  Both are
compared on the bytes of the document: all delimiters are ASCII.
-/

/-- The shortest text up to a closing delimiter, and the text behind it. -/
def firstClose (closing : Text) : Text → Option (Text × Text)
  | [] => none
  | char :: rest =>
      if closing.isPrefixOf (char :: rest) then some ([], (char :: rest).drop 2)
      else (firstClose closing rest).map fun found => (char :: found.1, found.2)

structure Match where
  start : Nat
  stop : Nat
  inner : Text

def matchFrom : Nat → Nat → Text → List Match
  | fuel + 1, i, first :: second :: rest =>
      match spanKind first second with
      | none => matchFrom fuel (i + 1) (second :: rest)
      | some kind =>
          match firstClose kind.closing rest with
          | none => matchFrom fuel (i + 1) (second :: rest)
          | some (inner, after) => ⟨i, i + inner.length + 4, inner⟩ :: matchFrom fuel (i + inner.length + 4) after
  | _, _, _ => []

/-- The matches of the pattern, from left to right. -/
def liquidSpan (src : Text) : List Match :=
  matchFrom src.length 0 src

/-- What an entity of the pattern stands for, and the text behind it; the text
starts after the ampersand. -/
def decodeEntity (s : Text) : Option (Text × Text) :=
  let named := [("amp;", "&"), ("lt;", "<"), ("gt;", ">"), ("quot;", "\""), ("apos;", "'"), ("nbsp;", " ")]
  let decimal := [("34;", "\""), ("39;", "'")]
  let hexadecimal := [("22;", "\""), ("27;", "'")]
  let (digits, table) := match s with
    | 35 :: 120 :: rest | 35 :: 88 :: rest => (rest.dropWhile (· = 48), hexadecimal)
    | 35 :: rest => (rest.dropWhile (· = 48), decimal)
    | _ => (s, named)
  (table.find? fun entity => (text entity.1).isPrefixOf digits).map fun entity =>
    (text entity.2, digits.drop (text entity.1).length)

def decodeEntities : Nat → Text → Text
  | fuel + 1, char :: rest =>
      match if char = 38 then decodeEntity rest else none with
      | some (value, after) => value ++ decodeEntities fuel after
      | none => char :: decodeEntities fuel rest
  | _, s => s

/-- Replaces the text between the offsets; the text starts at an offset itself. -/
def replaceSpans (replace : Text → Text) : Nat → List (Nat × Nat) → Text → Text
  | _, [], s => s
  | i, (start, stop) :: rest, s =>
      s.take (start - i) ++ replace ((s.take (stop - i)).drop (start - i)) ++
        replaceSpans replace stop rest (s.drop (stop - i))

def matched (src : Text) : List (Nat × Nat) :=
  (liquidSpan src).map fun m => (m.start, m.stop)

def scanned (src : Text) : List (Nat × Nat) :=
  (scanLiquidSpans src).map fun sp => (sp.start, sp.stop)

def unescapeLiquid (mjml : Text) : Text :=
  replaceSpans (fun span => decodeEntities span.length span) 0 (matched mjml) mjml

def quoteStep (quote : Option UInt8) (char : UInt8) : Option UInt8 :=
  match quote with
  | some quote => if char = quote then none else some quote
  | none => if isQuote char then some char else none

/-- Every quoted string of the text ends in it. -/
def Balanced (s : Text) : Prop :=
  s.foldl quoteStep none = none

instance (s : Text) : Decidable (Balanced s) :=
  inferInstanceAs (Decidable (_ = _))

section

variable {closing s : Text}

theorem closing_head (kind : SpanKind) : ∃ first tail, kind.closing = first :: tail ∧ isQuote first = false := by
  cases kind <;> exact ⟨_, _, rfl, rfl⟩

/-- The scanner goes on at every byte at which it does not close. -/
theorem scanToClose_cons (quote : Option UInt8) (goes : quote = none → closing.isPrefixOf (char :: rest) = false) :
    scanToClose closing quote (char :: rest) =
      (scanToClose closing (quoteStep quote char) rest).map fun found => (char :: found.1, found.2) := by
  cases quote with
  | some quote => rfl
  | none =>
      rw [scanToClose, quoteStep, goes rfl]
      split <;> rfl

theorem scanToClose_none (quote : Option UInt8) (missing : firstClose closing s = none) :
    scanToClose closing quote s = none := by
  induction s generalizing quote with
  | nil => cases quote <;> rfl
  | cons char rest ih =>
      rw [firstClose] at missing
      split at missing
      · cases missing
      next goes =>
        rw [scanToClose_cons _ fun _ => eq_false_of_ne_true goes, ih _ (Option.map_eq_none_iff.mp missing), Option.map_none]

/-- The scanner stops at the first closing delimiter exactly if no quoted string is
open there, and otherwise goes further. -/
theorem scanToClose_some {kind : SpanKind} {inner : Text} (quote : Option UInt8)
    (found : firstClose kind.closing s = some (inner, behind)) :
    if inner.foldl quoteStep quote = none then scanToClose kind.closing quote s = some (inner, behind)
    else ∀ other ∈ scanToClose kind.closing quote s, inner.length < other.1.length := by
  induction s generalizing quote inner with
  | nil => cases found
  | cons char rest ih =>
      rw [firstClose] at found
      split at found
      next closes =>
        cases found
        cases quote with
        | some quote =>
            rw [if_neg (by simp), scanToClose_cons (some quote) nofun]
            intro other met
            obtain ⟨later, -, rfl⟩ := Option.map_eq_some_iff.mp met
            exact Nat.succ_pos _
        | none =>
            obtain ⟨first, tail, closing, plain⟩ := closing_head kind
            have head : first = char := by
              rw [closing, isPrefixOf_cons_cons, Bool.and_eq_true, beq_iff_eq] at closes
              exact closes.1
            rw [foldl_nil, if_pos rfl, scanToClose, ← head, plain, if_neg (by decide), if_pos (head ▸ closes)]
      next goes =>
        obtain ⟨⟨inner, behind⟩, later, same⟩ := Option.map_eq_some_iff.mp found
        cases same
        have tail := ih (quoteStep quote char) later
        rw [scanToClose_cons _ fun _ => eq_false_of_ne_true goes, foldl_cons]
        split at tail
        next closed => rw [if_pos closed, tail, Option.map_some]
        next opened =>
          rw [if_neg opened]
          intro other met
          obtain ⟨further, reached, rfl⟩ := Option.map_eq_some_iff.mp met
          exact Nat.succ_lt_succ (tail further reached)

end

theorem start_of_located (located : Located i s spans) : ∀ sp ∈ spans, i ≤ sp.start := by
  induction located with
  | rest => exact nofun
  | span kind later ih =>
      intro sp member
      rcases mem_cons.mp member with rfl | member
      · exact Nat.le_add_right _ _
      · have further := ih sp member
        omega

theorem matchFrom_iff (fuel i : Nat) (s : Text) :
    (matchFrom fuel i s).map (fun m => (m.start, m.stop)) = (scanFrom fuel i s).map (fun sp => (sp.start, sp.stop)) ↔
      ∀ m ∈ matchFrom fuel i s, Balanced m.inner := by
  induction fuel generalizing i s with
  | zero => simp [matchFrom, scanFrom]
  | succ fuel ih =>
      rcases s with _ | ⟨first, _ | ⟨second, rest⟩⟩
      · simp [matchFrom, scanFrom]
      · simp [matchFrom, scanFrom]
      · rw [matchFrom, scanFrom]
        cases spanKind first second with
        | none => exact ih _ _
        | some kind =>
            dsimp only
            cases found : firstClose kind.closing rest with
            | none =>
                rw [scanToClose_none none found]
                exact ih _ _
            | some parts =>
                have scan := scanToClose_some none found
                split at scan
                next closed =>
                  simp only [scan, map_cons, cons.injEq, forall_mem_cons]
                  exact and_congr ⟨fun _ => closed, fun _ => rfl⟩ (ih _ _)
                next opened =>
                  refine iff_of_false (fun same => ?_) fun all => opened (all _ mem_cons_self)
                  -- the server's list starts further to the right, or with a longer construct
                  cases close : scanToClose kind.closing none rest with
                  | none =>
                      simp only [close] at same
                      obtain ⟨sp, member, start⟩ := mem_map.mp (same ▸ mem_map_of_mem mem_cons_self)
                      have further := start_of_located (scanFrom_located _ _ _) sp member
                      have here : sp.start = i := congrArg Prod.fst start
                      omega
                  | some other =>
                      simp only [close, map_cons, cons.injEq, Span.of, Prod.mk.injEq] at same
                      have longer := scan other close
                      omega

/-- The pattern and the scanner find the same constructs exactly if every quoted
string of a match ends in it, and then the console rewrites what the server reads. -/
theorem liquidSpan_iff (src : Text) :
    (matched src = scanned src ↔ ∀ m ∈ liquidSpan src, Balanced m.inner) ∧
    ((∀ m ∈ liquidSpan src, Balanced m.inner) →
      unescapeLiquid src = replaceSpans (fun span => decodeEntities span.length span) 0 (scanned src) src) := by
  have same : matched src = scanned src ↔ ∀ m ∈ liquidSpan src, Balanced m.inner := matchFrom_iff _ 0 src
  refine ⟨same, fun balanced => ?_⟩
  rw [unescapeLiquid, same.mpr balanced]

theorem plain_brace_same : matched (text "\x7b\x7b x \x7d\x7d") = scanned (text "\x7b\x7b x \x7d\x7d") :=
  (liquidSpan_iff _).1.mpr (by decide)

def quotedBrace : Text := text "\x7b\x7b \"\x7d\x7d\" \x7d\x7d"

/-- A quoted closing delimiter ends the match of the pattern and not the construct. -/
theorem quoted_brace_cut : matched quotedBrace = [(0, 6)] ∧ scanned quotedBrace = [(0, 10)] := by
  decide

end Sendplane.Console
