import Mathlib.Data.List.TakeWhile
import Sendplane.Render.Liquidscan

namespace Sendplane.Render

open Data Data.Strings Store Evaluator List
open Sendplane.Tracking (cut cut_append cut_eq_some)

def SpanKind.opening : SpanKind → Text
  | .object => text "\x7b\x7b"
  | .tag => text "\x7b%"

/-- The constructs in a text that starts at an offset. -/
inductive Located : Nat → Text → List Span → Prop
  | rest (i : Nat) (s : Text) : Located i s []
  | span {i : Nat} {gap raw tail : Text} {spans : List Span} (kind : SpanKind)
      (later : Located (i + gap.length + raw.length + 4) tail spans) :
      Located i (gap ++ (kind.opening ++ raw ++ kind.closing ++ tail)) (Span.of kind (i + gap.length) raw :: spans)

variable {i : Nat} {s : Text}

theorem Located.cons (char : UInt8) (located : Located (i + 1) s spans) : Located i (char :: s) spans := by
  cases located with
  | rest => exact .rest _ _
  | @span _ gap raw tail spans kind later =>
      have shift : i + 1 + gap.length = i + (char :: gap).length := by
        rw [length_cons]
        omega
      rw [shift] at later ⊢
      exact .span kind later

variable {quote : Option UInt8}

theorem scanToClose_eq (sized : closing.length = 2) {raw after : Text}
    (found : scanToClose closing quote s = some (raw, after)) : s = raw ++ closing ++ after := by
  induction s generalizing quote raw with
  | nil => cases quote <;> cases found
  | cons char rest ih =>
      have step {next : Option UInt8}
          (found : (scanToClose closing next rest).map (fun found => (char :: found.1, found.2)) = some (raw, after)) :
          char :: rest = raw ++ closing ++ after := by
        obtain ⟨⟨raw', after'⟩, later, same⟩ := Option.map_eq_some_iff.mp found
        cases same
        rw [ih later]
        rfl
      cases quote with
      | some quote => exact step found
      | none =>
          rw [scanToClose] at found
          split at found
          · exact step found
          split at found
          next closes =>
            cases found
            have starts := isPrefixOf_iff_prefix.mp closes
            rw [← sized]
            exact (prefix_iff_eq_append.mp starts).symm
          · exact step found

theorem spanKind_eq (opens : spanKind first second = some kind) : [first, second] = kind.opening := by
  rw [spanKind] at opens
  split at opens
  · cases opens
  next brace =>
  obtain rfl := not_not.mp brace
  split at opens
  next same =>
    cases opens
    rw [same]
    rfl
  split at opens
  next same =>
    cases opens
    rw [same]
    rfl
  · cases opens

theorem scanFrom_located (fuel i : Nat) (s : Text) : Located i s (scanFrom fuel i s) := by
  induction fuel generalizing i s with
  | zero => exact .rest i s
  | succ fuel ih =>
      match s with
      | [] => exact .rest i []
      | [only] => exact .rest i [only]
      | first :: second :: rest =>
          have skip := (ih (i + 1) (second :: rest)).cons first
          rw [scanFrom]
          split
          · exact skip
          next kind opens =>
          split
          · exact skip
          next raw after close =>
          have sized : kind.closing.length = 2 := by cases kind <;> rfl
          have source : first :: second :: rest = [] ++ (kind.opening ++ raw ++ kind.closing ++ after) := by
            rw [← spanKind_eq opens, scanToClose_eq sized close]
            simp
          rw [source]
          exact Located.span kind (ih _ _)

/-- The filter form of a translation, taken apart. -/
structure Construct where
  span : Span
  receiver : Text
  filters : List Text
  args : Text

def Construct.of (sp : Span) : Option Construct :=
  if sp.kind ≠ .object then none
  else
    let (receiver, filters) := filterChain sp.inner
    match filters.getLast? with
    | none => none
    | some f =>
        if filterName f = text "t" then some { span := sp, receiver, filters := filters.dropLast, args := filterArgs f }
        else none

def constructs (src : Text) : List Construct :=
  (scanLiquidSpans src).filterMap Construct.of

/-- One text is the other with the constructs replaced by tags.  The texts start
at an offset. -/
inductive Rewritten : Nat → List Construct → Text → Text → Prop
  | rest (i : Nat) (s : Text) : Rewritten i [] s s
  | construct {i : Nat} {gap raw tail out : Text} {later : List Construct} (c : Construct)
      (span : c.span = Span.of .object (i + gap.length) raw) (rewritten : Rewritten c.span.stop later tail out) :
      Rewritten i (c :: later) (gap ++ (SpanKind.object.opening ++ raw ++ SpanKind.object.closing ++ tail))
        (gap ++ (tagFor c.span c.receiver c.args ++ out))

theorem tIndex_append :
    tIndex (filters ++ [f]) = if filterName f = text "t" then some filters.length else tIndex filters := by
  rw [tIndex, zipIdx_append, reverse_append, zipIdx_singleton, reverse_singleton, singleton_append]
  by_cases last : filterName f = text "t"
  · simp [last]
  · simp [last, tIndex]

variable {filters : List Text}

theorem tIndex_lt (found : tIndex filters = some i) : i < filters.length := by
  obtain ⟨⟨f, i'⟩, first, rfl⟩ := Option.map_eq_some_iff.mp found
  have listed := mem_zipIdx (mem_reverse.mp (mem_of_find?_eq_some first))
  omega

variable {src : Text}

theorem rewriteSpans_cons (accepted : rewriteSpans src (sp :: spans) last built = .ok result) :
    Construct.of sp = none ∧ rewriteSpans src spans last built = .ok result ∨
      ∃ c, Construct.of sp = some c ∧ c.span = sp ∧ sp.kind = .object ∧
        rewriteSpans src spans sp.stop (built ++ (src.take sp.start).drop last ++ tagFor sp c.receiver c.args) =
          .ok result := by
  rw [rewriteSpans] at accepted
  rw [Construct.of]
  by_cases object : sp.kind = .object
  · simp only [object, ne_eq, not_true_eq_false] at accepted ⊢
    obtain none | ⟨filters, f, same⟩ := eq_nil_or_concat (filterChain sp.inner).2
    · rw [none] at accepted ⊢
      exact .inl ⟨rfl, accepted⟩
    · rw [concat_eq_append] at same
      rw [same, tIndex_append] at accepted
      rw [same, getLast?_concat]
      by_cases last : filterName f = text "t"
      · simp only [last, ↓reduceIte, length_append, length_singleton, getElem?_concat_length] at accepted ⊢
        exact .inr ⟨_, rfl, rfl, trivial, accepted⟩
      · simp only [last, ↓reduceIte] at accepted ⊢
        cases found : tIndex filters with
        | none =>
            rw [found] at accepted
            exact .inl ⟨trivial, accepted⟩
        | some i =>
            have inside := tIndex_lt found
            simp only [found, length_append, length_singleton] at accepted
            rw [if_pos (by omega)] at accepted
            cases accepted
  · simp only [object, ne_eq, not_false_eq_true, ↓reduceIte] at accepted ⊢
    exact .inl ⟨trivial, accepted⟩

/-- What has been read is written out up to `done`; `held` has been passed over
since. -/
theorem rewriteSpans_rewritten (located : Located i s spans) (done held : Text) (offset : i = (done ++ held).length)
    (whole : src = done ++ (held ++ s)) (begun : done = [] → built = [])
    (accepted : rewriteSpans src spans done.length built = .ok result) :
    ∃ rest, result = built ++ rest ∧ Rewritten done.length (spans.filterMap Construct.of) (held ++ s) rest := by
  induction located generalizing done held built with
  | rest i s =>
      rw [rewriteSpans, Except.ok.injEq] at accepted
      refine ⟨held ++ s, ?_, .rest _ _⟩
      by_cases nothing : done = []
      · subst nothing
        rw [begun rfl, ← accepted, if_pos length_nil, whole]
      · rw [← accepted, if_neg (by rwa [length_eq_zero_iff]), whole, drop_left]
  | @span i gap raw tail spans kind later ih =>
      have sized : kind.opening.length = 2 ∧ kind.closing.length = 2 := by cases kind <;> exact ⟨rfl, rfl⟩
      rw [length_append] at offset
      obtain ⟨none, accepted⟩ | ⟨c, found, here, object, accepted⟩ := rewriteSpans_cons accepted
      · obtain ⟨rest, same, rewritten⟩ := ih done (held ++ (gap ++ (kind.opening ++ raw ++ kind.closing)))
          (by simp; omega) (by rw [whole]; simp only [append_assoc]) begun accepted
        refine ⟨rest, same, ?_⟩
        rw [filterMap_cons, none]
        simpa using rewritten
      · obtain rfl : kind = .object := object
        have start : i + gap.length = (done ++ (held ++ gap)).length := by
          simp only [length_append]
          omega
        have between : (src.take (i + gap.length)).drop done.length = held ++ gap := by
          have source : src = done ++ (held ++ gap) ++ (SpanKind.object.opening ++ raw ++ SpanKind.object.closing ++ tail) := by
            rw [whole]
            simp
          rw [source, start, take_left, drop_left]
        have read : (done ++ (held ++ gap) ++ (SpanKind.object.opening ++ raw ++ SpanKind.object.closing)).length =
            i + gap.length + raw.length + 4 := by
          simp only [length_append]
          omega
        rw [Span.of, between, ← read] at accepted
        have begun' {made : Text} (nothing : done ++ (held ++ gap) ++
            (SpanKind.object.opening ++ raw ++ SpanKind.object.closing) = []) : made = [] := by
          rw [nothing, length_nil] at read
          omega
        obtain ⟨rest, same, rewritten⟩ := ih _ [] (by rw [append_nil, read])
          (by rw [whole]; simp) begun' accepted
        refine ⟨held ++ gap ++ (tagFor c.span c.receiver c.args ++ rest), ?_, ?_⟩
        · rw [same, here]
          simp only [append_assoc]
          rfl
        · rw [filterMap_cons, found, ← append_assoc held]
          rw [read] at rewritten
          refine Rewritten.construct c (by rw [here, offset]; simp [Nat.add_assoc]) ?_
          rw [here]
          exact rewritten

theorem rewriteTFilter_rewritten (accepted : rewriteTFilter src = .ok out) : Rewritten 0 (constructs src) src out := by
  obtain ⟨rest, same, rewritten⟩ := rewriteSpans_rewritten (scanFrom_located src.length 0 src) [] [] rfl rfl
    (fun _ => rfl) accepted
  rwa [same]

/-- Every separator in the text is quoted; the state is the quote that is open. -/
def unsplit (sep : UInt8) : Option UInt8 → Text → Bool
  | _, [] => true
  | some quote, char :: rest => unsplit sep (if char = quote then none else some quote) rest
  | none, char :: rest => if isQuote char then unsplit sep (some char) rest else char ≠ sep && unsplit sep none rest

theorem splitFrom_unsplit (whole : unsplit sep quote s = true) (part : Text) :
    splitFrom sep quote part s = [part ++ s] := by
  induction s generalizing quote part with
  | nil => cases quote <;> rw [splitFrom, append_nil]
  | cons char rest ih =>
      rw [append_cons]
      cases quote with
      | some quote => exact ih whole _
      | none =>
          rw [unsplit] at whole
          rw [splitFrom]
          split at whole
          next quoted => rw [if_pos quoted, ih whole]
          next plain =>
            obtain ⟨other, whole⟩ := Bool.and_eq_true_iff.mp whole
            rw [if_neg plain, if_neg (of_decide_eq_true other), ih whole]

theorem splitFrom_first (quote : Option UInt8) (part s : Text) :
    ∃ first rest, splitFrom sep quote part s = (part ++ first) :: rest ∧ unsplit sep quote first = true ∧
      first.length + rest.length ≤ s.length := by
  induction s generalizing quote part with
  | nil => exact ⟨[], [], by cases quote <;> rw [splitFrom, append_nil], by cases quote <;> rfl, Nat.le_refl 0⟩
  | cons char rest ih =>
      have further {next : Option UInt8} (kept : ∀ first, unsplit sep next first = true →
          unsplit sep quote (char :: first) = true)
          (same : splitFrom sep quote part (char :: rest) = splitFrom sep next (part ++ [char]) rest) :
          ∃ first parts, splitFrom sep quote part (char :: rest) = (part ++ first) :: parts ∧
            unsplit sep quote first = true ∧ first.length + parts.length ≤ (char :: rest).length := by
        obtain ⟨first, parts, split, whole, short⟩ := ih next (part ++ [char])
        refine ⟨char :: first, parts, ?_, kept first whole, ?_⟩
        · rw [same, split, ← append_cons]
        · rw [length_cons, length_cons]
          omega
      cases quote with
      | some quote => exact further (fun _ whole => whole) rfl
      | none =>
          by_cases quoted : isQuote char = true
          · exact further (fun _ whole => by rwa [unsplit, if_pos quoted]) (by rw [splitFrom, if_pos quoted])
          by_cases here : char = sep
          · obtain ⟨first, parts, split, -, short⟩ := ih none []
            refine ⟨[], splitFrom sep none [] rest, ?_, rfl, ?_⟩
            · rw [splitFrom, if_neg quoted, if_pos here, append_nil]
            · rw [split, length_cons, length_cons, length_nil]
              omega
          · exact further (fun _ whole => by rw [unsplit, if_neg quoted, whole]; simpa using here)
              (by rw [splitFrom, if_neg quoted, if_neg here])

theorem unsplit_of_append {tail : Text} (whole : unsplit sep quote (s ++ tail) = true) :
    unsplit sep quote s = true := by
  induction s generalizing quote with
  | nil => cases quote <;> rfl
  | cons char rest ih =>
      cases quote with
      | some quote => exact ih whole
      | none =>
          rw [cons_append, unsplit] at whole
          rw [unsplit]
          split at whole
          next quoted => rw [if_pos quoted, ih whole]
          next plain =>
            obtain ⟨other, whole⟩ := Bool.and_eq_true_iff.mp whole
            rw [if_neg plain, other, ih whole, Bool.and_true]

theorem unsplit_of_prepend (plain : ∀ char ∈ front, isQuote char = false)
    (whole : unsplit sep none (front ++ s) = true) : unsplit sep none s = true := by
  induction front with
  | nil => exact whole
  | cons char front ih =>
      rw [cons_append, unsplit, plain char mem_cons_self] at whole
      exact ih (fun other listed => plain other (mem_cons_of_mem _ listed)) (Bool.and_eq_true_iff.mp whole).2

theorem unsplit_trimSpace (whole : unsplit sep none s = true) : unsplit sep none (trimSpace s) = true := by
  obtain ⟨front, back, same, white⟩ := trimSpace_drops s
  have plain (char : UInt8) (listed : char ∈ front) : isQuote char = false := by
    obtain ⟨pattern, mem, inside⟩ := white char listed
    have quoteless : ∀ pattern ∈ spaces, ∀ char ∈ pattern, isQuote char = false := by decide +kernel
    exact quoteless pattern mem char inside
  rw [same, append_assoc] at whole
  exact unsplit_of_append (unsplit_of_prepend plain whole)

theorem filterChain_receiver {inner : Text} : filterChain (filterChain inner).1 = ((filterChain inner).1, []) := by
  obtain ⟨first, rest, split, whole, -⟩ := splitFrom_first none [] inner
  have receiver : (filterChain inner).1 = trimSpace first := by
    rw [filterChain, splitTopLevel, split]
    rfl
  rw [receiver, filterChain, splitTopLevel, splitFrom_unsplit (unsplit_trimSpace whole) []]
  simp [trimSpace_of_trimmed (trimmed_trimSpace first)]

theorem trimmed_receiver {inner : Text} : Trimmed (filterChain inner).1 := by
  rw [filterChain]
  split
  · exact trimmed_trimSpace []
  · exact trimmed_trimSpace _

theorem trimmed_filterArgs : Trimmed (filterArgs f) := by
  rw [filterArgs]
  split
  · exact trimmed_trimSpace _
  · exact trimmed_trimSpace []

theorem length_filterChain_le (s : Text) : (filterChain s).1.length + (filterChain s).2.length ≤ s.length := by
  obtain ⟨first, rest, split, -, short⟩ := splitFrom_first none [] s
  have trimmed := length_trimSpace_le first
  rw [filterChain, splitTopLevel, split, nil_append]
  simp only [length_map]
  omega

def literal : Text → Option Text
  | [] => none
  | quote :: rest =>
      if isQuote quote then
        match cut rest quote with
        | some (body, []) => some body
        | _ => none
      else none

/-- A quoted string denotes its content. -/
def Evaluator.Lawful (eval : Evaluator) : Prop :=
  ∀ s body, literal s = some body → eval s [] = .ok body

/-- The tag looks up the value of the expression, with the keyword arguments of
the filter. -/
def Construct.Denotes (c : Construct) (eval : Evaluator) : Prop :=
  ∃ parsed, parseTagArgs (tagArgs c.receiver c.args) = .ok parsed ∧ parseKwargs c.args = .ok parsed.kwargs ∧
    tTagKey eval (tagArgs c.receiver c.args) = eval c.receiver c.filters

/-- The key of the tag is the whole receiver. -/
def WholeKey (receiver : Text) : Prop :=
  if isQuoted receiver then (literal receiver).isSome = true else ∀ char ∈ receiver, endsKey char = false

instance (receiver : Text) : Decidable (WholeKey receiver) :=
  inferInstanceAs (Decidable (if isQuoted receiver then (literal receiver).isSome = true
    else ∀ char ∈ receiver, endsKey char = false))

/-- The tag says the same as the filter form. -/
structure Construct.Sound (c : Construct) : Prop where
  unfiltered : c.filters = []
  whole : WholeKey c.receiver
  present : c.receiver ≠ [] ∨ c.args ≠ []
  named : (parseKwargs c.args).isOk = true

instance (c : Construct) : Decidable c.Sound :=
  decidable_of_iff
    (c.filters = [] ∧ WholeKey c.receiver ∧ (c.receiver ≠ [] ∨ c.args ≠ []) ∧ (parseKwargs c.args).isOk = true)
    ⟨fun ⟨unfiltered, whole, present, named⟩ => ⟨unfiltered, whole, present, named⟩,
      fun ⟨unfiltered, whole, present, named⟩ => ⟨unfiltered, whole, present, named⟩⟩

/-- The parts are as the scanner cuts them. -/
structure Construct.Proper (c : Construct) : Prop where
  receiver : Trimmed c.receiver
  args : Trimmed c.args
  alone : filterChain c.receiver = (c.receiver, [])

variable {c : Construct}

theorem Construct.of_proper (found : Construct.of sp = some c) : c.Proper := by
  rw [Construct.of] at found
  split at found
  · cases found
  · simp only at found
    split at found
    · cases found
    next f last =>
    split at found
    · cases found
      refine ⟨trimmed_receiver, trimmed_filterArgs, filterChain_receiver⟩
    · cases found

theorem tagArgs_append : tagArgs receiver args = receiver ++ tagArgs [] args := by
  rw [tagArgs, tagArgs]
  split
  · rw [append_nil]
  · rw [append_assoc, nil_append]

theorem comma_starts (mem : pattern ∈ spaces) : ¬pattern <+: 44 :: rest := by
  have starts : ∀ pattern ∈ spaces, ∃ char ∈ pattern.head?, char ≠ 44 := by decide
  obtain ⟨char, first, other⟩ := starts pattern mem
  rintro ⟨tail, same⟩
  cases pattern with
  | nil => cases first
  | cons char' pattern =>
      cases first
      exact other (cons.inj same).1

variable {receiver : Text}

theorem trimmed_tagArgs (key : Trimmed receiver) (named : Trimmed args) : Trimmed (tagArgs receiver args) := by
  rw [tagArgs]
  split
  · exact key
  next some =>
  have written : receiver ++ text ", " ++ args = receiver ++ 44 :: 32 :: args := by
    rw [append_assoc]
    rfl
  rw [written]
  constructor
  · intro pattern mem starts
    by_cases nothing : receiver = []
    · rw [nothing] at starts
      exact comma_starts mem starts
    · exact key.1 pattern mem (prefix_of_append mem (by decide) nothing starts)
  · intro pattern mem ends
    rw [append_cons] at ends
    exact named.2 pattern mem (suffix_of_append mem (by decide) some ends)

theorem afterKey_tagArgs (trimmed : Trimmed args) : afterKey (tagArgs [] args) = args := by
  have empty : Trimmed [] := trimmed_trimSpace []
  have whole := trimSpace_of_trimmed (trimmed_tagArgs empty trimmed)
  rw [afterKey, whole]
  by_cases nothing : args = []
  · rw [nothing]
    rfl
  · have written : tagArgs [] args = 44 :: 32 :: args := by
      rw [tagArgs, if_neg nothing]
      rfl
    rw [written]
    exact (trimSpace_space).trans (trimSpace_of_trimmed trimmed)

variable {body : Text}

theorem literal_eq_some (found : literal s = some body) :
    ∃ quote, isQuote quote = true ∧ quote ∉ body ∧ s = quote :: (body ++ [quote]) := by
  cases s with
  | nil => cases found
  | cons quote rest =>
      rw [literal] at found
      split at found
      next quoted =>
        split at found
        next body' closed =>
          cases found
          obtain ⟨same, free⟩ := cut_eq_some closed
          exact ⟨quote, quoted, free, by rw [same]⟩
        · cases found
      · cases found

theorem isQuoted_of_literal (known : (literal s).isSome = true) : isQuoted s = true := by
  obtain ⟨body, found⟩ := Option.isSome_iff_exists.mp known
  obtain ⟨quote, quoted, -, rfl⟩ := literal_eq_some found
  exact quoted

theorem parseTagArgs_literal (key : Trimmed receiver) (named : Trimmed args) (found : literal receiver = some body) :
    parseTagArgs (tagArgs receiver args) = (parseKwargs args).map (⟨body, true, ·⟩) := by
  obtain ⟨quote, quoted, free, same⟩ := literal_eq_some found
  have written : tagArgs receiver args = quote :: (body ++ quote :: tagArgs [] args) := by
    rw [tagArgs_append, same]
    simp
  rw [parseTagArgs, trimSpace_of_trimmed (trimmed_tagArgs key named), written]
  simp only [quoted, ↓reduceIte, cut_append free, afterKey_tagArgs named]
  cases parseKwargs args <;> rfl

theorem isQuoted_tagArgs (receiver args : Text) : isQuoted (tagArgs receiver args) = isQuoted receiver := by
  rw [tagArgs_append]
  cases receiver with
  | nil =>
      rw [tagArgs]
      split <;> rfl
  | cons first rest => rfl

theorem tagArgs_ends : (tagArgs [] args).takeWhile (!endsKey ·) = [] ∧
    (tagArgs [] args).dropWhile (!endsKey ·) = tagArgs [] args := by
  rw [tagArgs]
  split <;> exact ⟨rfl, rfl⟩

theorem takeWhile_tagArgs (receiver args : Text) :
    (tagArgs receiver args).takeWhile (!endsKey ·) = receiver.takeWhile (!endsKey ·) := by
  rw [tagArgs_append, takeWhile_append, (tagArgs_ends).1, append_nil]
  split
  next all =>
    have taken : receiver.takeWhile (!endsKey ·) <+: receiver := takeWhile_prefix _
    exact (IsPrefix.eq_of_length taken all).symm
  · rfl

theorem takeWhile_eq_receiver :
    receiver.takeWhile (!endsKey ·) = receiver ↔ ∀ char ∈ receiver, endsKey char = false := by
  simp

theorem dropWhile_tagArgs (args : Text) (whole : ∀ char ∈ receiver, endsKey char = false) :
    (tagArgs receiver args).dropWhile (!endsKey ·) = tagArgs [] args := by
  have inside : ∀ char ∈ receiver, (!endsKey char) = true := by
    intro char listed
    rw [whole char listed]
    rfl
  rw [tagArgs_append, dropWhile_append_of_pos inside, (tagArgs_ends).2]

theorem tagArgs_ne_nil : tagArgs receiver args ≠ [] ↔ receiver ≠ [] ∨ args ≠ [] := by
  rw [tagArgs]
  by_cases none : args = []
  · simp [none]
  · simp [none]

theorem parseTagArgs_bare (key : Trimmed receiver) (named : Trimmed args) (bare : isQuoted receiver = false)
    (whole : ∀ char ∈ receiver, endsKey char = false) (present : receiver ≠ [] ∨ args ≠ []) :
    parseTagArgs (tagArgs receiver args) = (parseKwargs args).map (⟨receiver, false, ·⟩) := by
  have taken := (takeWhile_tagArgs receiver args).trans (takeWhile_eq_receiver.mpr whole)
  have dropped := dropWhile_tagArgs args whole
  obtain ⟨first, rest, written⟩ := exists_cons_of_ne_nil (tagArgs_ne_nil.mpr present)
  have plain : isQuote first = false := by
    have same := isQuoted_tagArgs receiver args
    rwa [written, bare] at same
  rw [written] at taken dropped
  rw [parseTagArgs, trimSpace_of_trimmed (trimmed_tagArgs key named), written]
  simp only [plain, Bool.false_eq_true, ↓reduceIte, taken, dropped, afterKey_tagArgs named]
  cases parseKwargs args <;> rfl

theorem parseTagArgs_key (trimmed : Trimmed args) (read : parseTagArgs args = .ok parsed) :
    args ≠ [] ∧ (isQuoted args = false → parsed.key = args.takeWhile (!endsKey ·)) := by
  rw [parseTagArgs, trimSpace_of_trimmed trimmed] at read
  cases args with
  | nil => cases read
  | cons first rest =>
      refine ⟨cons_ne_nil _ _, fun (bare : isQuote first = false) => ?_⟩
      simp only [bare, Bool.false_eq_true, ↓reduceIte] at read
      split at read <;> cases read
      rfl

/-- Quoted strings have their content, the given expression has the given value,
and everything else is empty. -/
def Evaluator.marking (receiver : Text) (filters : List Text) (value : Text) : Evaluator := fun s fs =>
  match if fs = [] then literal s else none with
  | some body => .ok body
  | none => .ok (if s = receiver ∧ fs = filters then value else [])

theorem Evaluator.marking_lawful (receiver : Text) (filters : List Text) (value : Text) :
    (marking receiver filters value).Lawful := by
  intro s body found
  rw [marking, if_pos rfl, found]

theorem Evaluator.marking_self (other : ¬(filters = [] ∧ (literal receiver).isSome = true)) :
    marking receiver filters value receiver filters = .ok value := by
  have unknown : (if filters = [] then literal receiver else none) = none := by
    split
    next none => simpa [none] using other
    · rfl
  rw [marking, unknown]
  simp only [and_self, ↓reduceIte]

theorem Evaluator.eq_of_marking (long : s.length < value.length)
    (marked : marking receiver filters value s fs = .ok value) : s = receiver ∧ fs = filters := by
  rw [marking] at marked
  split at marked
  next body found =>
    cases marked
    have quoted : literal s = some value := by
      split at found
      · exact found
      · cases found
    obtain ⟨quote, -, -, rfl⟩ := literal_eq_some quoted
    simp only [length_cons, length_append] at long
    omega
  · split at marked
    next same => exact same
    · cases marked
      cases long

theorem denotes_of_sound (proper : c.Proper) (sound : c.Sound) (lawful : eval.Lawful) : c.Denotes eval := by
  obtain ⟨unfiltered, whole, present, named⟩ := sound
  cases kwargs : parseKwargs c.args with
  | error e =>
      rw [kwargs] at named
      cases named
  | ok kwargs' =>
  have trimmed := trimSpace_of_trimmed (trimmed_tagArgs proper.receiver proper.args)
  rw [WholeKey] at whole
  split at whole
  next quoted =>
    obtain ⟨body, found⟩ := Option.isSome_iff_exists.mp whole
    have read := parseTagArgs_literal proper.receiver proper.args found
    rw [kwargs] at read
    refine ⟨_, read, kwargs, ?_⟩
    rw [tTagKey, read, trimmed, isQuoted_tagArgs, quoted, unfiltered, lawful _ _ found]
    rfl
  next bare =>
    have plain : isQuoted c.receiver = false := by simpa using bare
    have read := parseTagArgs_bare proper.receiver proper.args plain whole present
    rw [kwargs] at read
    refine ⟨_, read, kwargs, ?_⟩
    rw [tTagKey, read, trimmed, isQuoted_tagArgs, plain, unfiltered]
    simp only [Except.map, Bool.false_eq_true, ↓reduceIte, string, proper.alone]

theorem sound_of_denotes (proper : c.Proper) (denotes : ∀ eval : Evaluator, eval.Lawful → c.Denotes eval) :
    c.Sound := by
  have trimmed := trimmed_tagArgs proper.receiver proper.args
  obtain ⟨parsed, read, named, -⟩ := denotes _ (marking_lawful [] [] [])
  obtain ⟨written, bareKey⟩ := parseTagArgs_key trimmed read
  have value (v : Text) : tTagKey (marking c.receiver c.filters v) (tagArgs c.receiver c.args) =
      marking c.receiver c.filters v c.receiver c.filters := by
    obtain ⟨-, -, -, same⟩ := denotes _ (marking_lawful c.receiver c.filters v)
    exact same
  simp only [tTagKey, read, trimSpace_of_trimmed trimmed, isQuoted_tagArgs] at value bareKey
  have key : c.filters = [] ∧ WholeKey c.receiver := by
    rw [WholeKey]
    by_cases quoted : isQuoted c.receiver = true
    · rw [if_pos quoted]
      by_contra other
      have marked := value (0 :: parsed.key)
      rw [marking_self other, if_pos quoted, Except.ok.injEq] at marked
      exact cons_ne_self 0 parsed.key marked.symm
    · rw [if_neg quoted]
      have plain : isQuoted c.receiver = false := by simpa using quoted
      have other : ¬(c.filters = [] ∧ (literal c.receiver).isSome = true) := by
        rintro ⟨-, known⟩
        exact quoted (isQuoted_of_literal known)
      have marked := value (0 :: (filterChain parsed.key).1)
      rw [marking_self other, if_neg quoted] at marked
      obtain ⟨receiver, filters⟩ := eq_of_marking (Nat.lt_succ_self _) marked
      -- the key is not longer than the receiver, so there is no room for a filter
      have short := length_filterChain_le parsed.key
      rw [receiver, filters, bareKey plain, takeWhile_tagArgs] at short
      have starts := takeWhile_prefix (l := c.receiver) (!endsKey ·)
      have fits := starts.length_le
      exact ⟨eq_nil_of_length_eq_zero (by omega), takeWhile_eq_receiver.mp (starts.eq_of_length (by omega))⟩
  exact ⟨key.1, key.2, tagArgs_ne_nil.mp written, by rw [named]; rfl⟩

/-- The source with its constructs replaced by tags that denote the same. -/
structure Faithful (src out : Text) : Prop where
  rewritten : Rewritten 0 (constructs src) src out
  denotes : ∀ c ∈ constructs src, ∀ eval : Evaluator, eval.Lawful → c.Denotes eval

theorem proper_of_mem (mem : c ∈ constructs src) : c.Proper := by
  obtain ⟨sp, -, found⟩ := mem_filterMap.mp mem
  exact Construct.of_proper found

/-- The rewriting says the same exactly if every construct it replaces is sound. -/
theorem rewriteTFilter_faithful_iff (src out : Text) (accepted : rewriteTFilter src = .ok out) :
    Faithful src out ↔ ∀ c ∈ constructs src, c.Sound := by
  constructor
  · intro faithful c mem
    exact sound_of_denotes (proper_of_mem mem) (faithful.denotes c mem)
  · intro sound
    refine ⟨rewriteTFilter_rewritten accepted, fun c mem eval lawful => ?_⟩
    exact denotes_of_sound (proper_of_mem mem) (sound c mem) lawful

/-- `Hello {{- "welcome" | t: name: user.name -}}!` -/
def greeting : Text :=
  text "Hello \x7b\x7b- \"welcome\" | t: name: user.name -\x7d\x7d!"

theorem greeting_faithful : rewriteTFilter greeting = .ok (text "Hello \x7b%- t \"welcome\", name: user.name -%\x7d!") ∧
    Faithful greeting (text "Hello \x7b%- t \"welcome\", name: user.name -%\x7d!") := by
  have accepted : rewriteTFilter greeting = .ok (text "Hello \x7b%- t \"welcome\", name: user.name -%\x7d!") := by
    decide +kernel
  have sound : ∀ c ∈ constructs greeting, c.Sound := by decide +kernel
  exact ⟨accepted, (rewriteTFilter_faithful_iff _ _ accepted).mpr sound⟩

/-- In `{{ name | upcase | t }}` the filter before `t` is lost. -/
theorem upcase_dropped : rewriteTFilter (text "\x7b\x7b name | upcase | t \x7d\x7d") = .ok (text "\x7b% t name %\x7d") ∧
    ¬Faithful (text "\x7b\x7b name | upcase | t \x7d\x7d") (text "\x7b% t name %\x7d") := by
  refine ⟨by decide +kernel, fun faithful => ?_⟩
  have listed : ∃ c ∈ constructs (text "\x7b\x7b name | upcase | t \x7d\x7d"), c.filters ≠ [] := by
    decide +kernel
  obtain ⟨c, mem, filtered⟩ := listed
  exact filtered (sound_of_denotes (proper_of_mem mem) (faithful.denotes c mem)).unfiltered

end Sendplane.Render
