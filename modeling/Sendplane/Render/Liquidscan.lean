import Sendplane.Tracking.Token

namespace Sendplane.Render

open Data Data.Strings Store
open Sendplane.Tracking (cut)

def isQuote (char : UInt8) : Bool :=
  char = 39 || char = 34

inductive SpanKind where
  | object | tag
deriving DecidableEq

/-- A construct of the source; a quoted string inside may contain the closing delimiter. -/
structure Span where
  kind : SpanKind
  start : Nat
  stop : Nat
  inner : Text
  trimLeft : Bool
  trimRight : Bool

/-- The text up to the closing delimiter, and the text behind it.  The state is
the quote that is open: from a quote the scan jumps to the next one like it, and
fails if there is none. -/
def scanToClose (closing : Text) : Option UInt8 → Text → Option (Text × Text)
  | _, [] => none
  | some quote, char :: rest =>
      (scanToClose closing (if char = quote then none else some quote) rest).map fun found => (char :: found.1, found.2)
  | none, char :: rest =>
      if isQuote char then
        (scanToClose closing (some char) rest).map fun found => (char :: found.1, found.2)
      else if closing.isPrefixOf (char :: rest) then some ([], (char :: rest).drop 2)
      else (scanToClose closing none rest).map fun found => (char :: found.1, found.2)

def SpanKind.closing : SpanKind → Text
  | .object => text "\x7d\x7d"
  | .tag => text "%\x7d"

def Span.of (kind : SpanKind) (start : Nat) (raw : Text) : Span :=
  let trimLeft := (text "-").isPrefixOf raw
  let inner := if trimLeft then raw.drop 1 else raw
  let trimRight := (text "-").isSuffixOf inner
  let inner := if trimRight then inner.dropLast else inner
  { kind, start, stop := start + raw.length + 4, inner := trimSpace inner, trimLeft, trimRight }

def spanKind (first second : UInt8) : Option SpanKind :=
  if first ≠ 123 then none
  else if second = 123 then some .object
  else if second = 37 then some .tag
  else none

/-- The constructs from an offset on; every step goes at least one byte further. -/
def scanFrom : Nat → Nat → Text → List Span
  | fuel + 1, i, first :: second :: rest =>
      match spanKind first second with
      | none => scanFrom fuel (i + 1) (second :: rest)
      | some kind =>
          match scanToClose kind.closing none rest with
          | none => scanFrom fuel (i + 1) (second :: rest)
          | some (raw, after) => Span.of kind i raw :: scanFrom fuel (i + raw.length + 4) after
  | _, _, _ => []

def scanLiquidSpans (src : Text) : List Span :=
  scanFrom src.length 0 src

/-- The parts of a text between the separators that are not quoted; a quote that
is never closed reaches to the end. -/
def splitFrom (sep : UInt8) : Option UInt8 → Text → Text → List Text
  | _, part, [] => [part]
  | some quote, part, char :: rest =>
      splitFrom sep (if char = quote then none else some quote) (part ++ [char]) rest
  | none, part, char :: rest =>
      if isQuote char then splitFrom sep (some char) (part ++ [char]) rest
      else if char = sep then part :: splitFrom sep none [] rest
      else splitFrom sep none (part ++ [char]) rest

def splitTopLevel (s : Text) (sep : UInt8) : List Text :=
  splitFrom sep none [] s

def filterChain (inner : Text) : Text × List Text :=
  match splitTopLevel inner 124 with
  | [] => ([], [])
  | receiver :: filters => (trimSpace receiver, filters.map trimSpace)

def filterName (f : Text) : Text :=
  match cut f 58 with
  | some (name, _) => trimSpace name
  | none => trimSpace f

def filterArgs (f : Text) : Text :=
  match cut f 58 with
  | some (_, args) => trimSpace args
  | none => []

def errTFilterChain : Text :=
  text "render: the \"t\" filter must be the last filter in an expression"

def tIndex (filters : List Text) : Option Nat :=
  (filters.zipIdx.reverse.find? fun entry => filterName entry.1 = text "t").map Prod.snd

def tagArgs (receiver args : Text) : Text :=
  if args = [] then receiver else receiver ++ text ", " ++ args

def tagFor (sp : Span) (receiver args : Text) : Text :=
  text "\x7b%" ++ (if sp.trimLeft then text "-" else []) ++ text " t " ++ tagArgs receiver args ++ text " " ++
    (if sp.trimRight then text "-" else []) ++ text "%\x7d"

/-- Rewrites the constructs; `last` is the offset up to which the source has been
written out. -/
def rewriteSpans (src : Text) : List Span → Nat → Text → Except Text Text
  | [], last, out => .ok (if last = 0 then src else out ++ src.drop last)
  | sp :: spans, last, out =>
      if sp.kind ≠ .object then rewriteSpans src spans last out
      else
        let (receiver, filters) := filterChain sp.inner
        match tIndex filters with
        | none => rewriteSpans src spans last out
        | some i =>
            if i + 1 ≠ filters.length then .error errTFilterChain
            else
              let between := (src.take sp.start).drop last
              let args := filterArgs (filters[i]?.getD [])
              rewriteSpans src spans sp.stop (out ++ between ++ tagFor sp receiver args)

def rewriteTFilter (src : Text) : Except Text Text :=
  rewriteSpans src (scanLiquidSpans src) 0 []

structure Kwarg where
  name : Text
  expr : Text

def notNameValue (part : Text) : Text :=
  text "render: t tag argument " ++ quote part ++ text " is not name: value"

def parseParts : List Text → Except Text (List Kwarg)
  | [] => .ok []
  | part :: rest =>
      let part := trimSpace part
      if part = [] then parseParts rest
      else match cut part 58 with
        | none => .error (notNameValue part)
        | some (name, expr) =>
            if trimSpace name = [] ∨ trimSpace expr = [] then .error (notNameValue part)
            else match parseParts rest with
              | .error e => .error e
              | .ok kwargs => .ok (⟨trimSpace name, trimSpace expr⟩ :: kwargs)

def parseKwargs (s : Text) : Except Text (List Kwarg) :=
  if s = [] then .ok [] else parseParts (splitTopLevel s 44)

structure TagArgs where
  key : Text
  literal : Bool
  kwargs : List Kwarg

/-- What follows the key; the comma between them may be missing. -/
def afterKey (s : Text) : Text :=
  let s := trimSpace s
  trimSpace (if (text ",").isPrefixOf s then s.drop 1 else s)

def endsKey (char : UInt8) : Bool :=
  char = 32 || char = 9 || char = 44

def parseTagArgs (args : Text) : Except Text TagArgs :=
  match trimSpace args with
  | [] => .error (text "render: t tag requires a key")
  | first :: rest =>
      let found : Except Text (Text × Bool × Text) :=
        if isQuote first then
          match cut rest first with
          | none => .error (text "render: t tag has an unterminated string key")
          | some (key, s) => .ok (key, true, s)
        else .ok ((first :: rest).takeWhile (!endsKey ·), false, (first :: rest).dropWhile (!endsKey ·))
      match found with
      | .error e => .error e
      | .ok (key, literal, s) =>
          match parseKwargs (afterKey s) with
          | .error e => .error e
          | .ok kwargs => .ok { key, literal, kwargs }

abbrev Evaluator := Text → List Text → Except Text Text

def Evaluator.string (eval : Evaluator) (expr : Text) : Except Text Text :=
  eval (filterChain expr).1 (filterChain expr).2

def isQuoted (s : Text) : Bool :=
  match s with
  | [] => false
  | first :: _ => isQuote first

def tTagKey (eval : Evaluator) (args : Text) : Except Text Text :=
  match parseTagArgs args with
  | .error e => .error e
  | .ok parsed => if isQuoted (trimSpace args) then .ok parsed.key else eval.string parsed.key

end Sendplane.Render
