import Sendplane.Data.Encoding
import Sendplane.Data.Strings
import Sendplane.Render.Escape

namespace Sendplane.Render

open Data Data.Strings Store List

structure Attribute where
  ns : Text := []
  key : Text
  val : Text

/-- A token of the document: the text it was read from, and the name and the
attributes of a start tag. -/
structure HtmlToken where
  raw : Text
  startTag : Bool := false
  data : Text := []
  attr : List Attribute := []

/-- What the tokenizer hands out for a source: the tokens, and the text that comes
with the error token at the end. -/
structure Tokenizer (src : Text) where
  tokens : List HtmlToken
  last : Text
  /-- An error other than the end of the input. -/
  err : Option Text := none
  whole : tokens.flatMap HtmlToken.raw ++ last = src

def isAnchorTag : Text → Bool
  | first :: second :: third :: _ =>
      first = 60 && (second = 97 || second = 65) && [32, 9, 10, 13, 12, 47, 62].contains third
  | _ => false

def attrValue (attrs : List Attribute) (key : Text) : Text :=
  (attrs.find? (·.key = key)).elim [] (·.val)

def setAttr (key val : Text) : List Attribute → List Attribute
  | [] => [{ key, val }]
  | a :: rest => if a.key = key then { a with val } :: rest else a :: setAttr key val rest

/-- The escaping of the HTML package, which knows one more character. -/
def escapeValue (s : Text) : Text :=
  s.flatMap fun char => if char = 13 then text "&#13;" else escapeChar char

def renderStartTag (name : Text) (attrs : List Attribute) : Text :=
  text "<" ++ name ++ attrs.flatMap (fun a =>
    text " " ++ (if a.ns = [] then [] else a.ns ++ text ":") ++ a.key ++ text "=\"" ++ escapeValue a.val ++
      text "\"") ++ text ">"

def trackOffAttr : Text := text "data-sp-track"

def isTrackable (tables : Unicode) (attrs : List Attribute) : Bool :=
  if (trimSpace (attrValue attrs trackOffAttr)).map lowerByte = text "off" then false
  else
    let href := trimSpace (attrValue attrs (text "href"))
    if href = [] || (text "#").isPrefixOf href then false
    else
      let lower := tables.toLower href
      if ["mailto:", "tel:", "sms:", "ftp:", "javascript:", "data:"].any fun scheme => (text scheme).isPrefixOf lower then
        false
      else if contains href (text "\x7b\x7b") || contains href (text "\x7b%") then true
      else (text "http://").isPrefixOf lower || (text "https://").isPrefixOf lower

/-- The callback has a state of its own; without a replacement the tag stays. -/
abbrev AnchorFn (σ : Type) := σ → List Attribute → Text → Option Text × σ

section

variable {σ : Type} {src : Text}

/-- The loop over the tokens: the offset behind the last one, the state of the
callback and what has been written. -/
def mapAnchorsFrom (z : Tokenizer src) (fn : AnchorFn σ) : List HtmlToken → Nat → σ → Text → Except Text Text
  | [], start, _, b =>
      let pos := start + z.last.length
      match z.err with
      | some err => .error (text "render: html scan: " ++ err)
      | none => .ok (if pos < src.length then b ++ src.drop pos else b)
  | tok :: rest, start, state, b =>
      let pos := start + tok.raw.length
      if src.length < pos then
        .error (text "render: html scan: offset " ++ itoa pos ++ text " past input " ++ itoa src.length)
      else
        let raw := (src.take pos).drop start
        if !tok.startTag || !isAnchorTag raw || tok.data ≠ text "a" then mapAnchorsFrom z fn rest pos state (b ++ raw)
        else mapAnchorsFrom z fn rest pos (fn state tok.attr raw).2 (b ++ (fn state tok.attr raw).1.getD raw)

/-- Only start tags of anchors are given to the callback; the rest is copied by offsets. -/
def mapAnchors (z : Tokenizer src) (fn : AnchorFn σ) (state : σ) : Except Text Text :=
  mapAnchorsFrom z fn z.tokens 0 state []

def linkRewriter (tables : Unicode) (rewrite : Nat → Text → Text) : AnchorFn Nat := fun n attrs _ =>
  if !isTrackable tables attrs then (none, n)
  else
    let href := trimSpace (attrValue attrs (text "href"))
    let next := rewrite n href
    if next = href then (none, n + 1)
    else (some (renderStartTag (text "a") (setAttr (text "href") next attrs)), n + 1)

def rewriteLinks (tables : Unicode) (z : Tokenizer src) (rewrite : Option (Nat → Text → Text)) : Except Text Text :=
  match rewrite with
  | none => .ok src
  | some rewrite => mapAnchors z (linkRewriter tables rewrite) 0

def unsubscribeMarker : AnchorFn Unit := fun _ attrs _ =>
  if !contains (attrValue attrs (text "href")) (text "unsubscribe_url") then (none, ())
  else if (attrValue attrs trackOffAttr).map lowerByte = text "off" then (none, ())
  else (some (renderStartTag (text "a") (setAttr trackOffAttr (text "off") attrs)), ())

def markUnsubscribeAnchors (z : Tokenizer src) : Except Text Text :=
  mapAnchors z unsubscribeMarker ()

def HtmlToken.isAnchor (tok : HtmlToken) : Bool :=
  tok.startTag && isAnchorTag tok.raw && tok.data = text "a"

/-- The raw texts of the tokens, with those of anchors replaced where the callback
asks for it. -/
def replaced (fn : AnchorFn σ) : List HtmlToken → σ → Text
  | [], _ => []
  | tok :: rest, state =>
      if tok.isAnchor then (fn state tok.attr tok.raw).1.getD tok.raw ++ replaced fn rest (fn state tok.attr tok.raw).2
      else tok.raw ++ replaced fn rest state

theorem replaced_never (never : ∀ state attrs raw, (fn state attrs raw).1 = none) (state : σ) :
    replaced fn tokens state = tokens.flatMap HtmlToken.raw := by
  induction tokens generalizing state with
  | nil => rfl
  | cons tok rest ih =>
      rw [replaced, flatMap_cons]
      split
      · rw [never, Option.getD_none, ih]
      · rw [ih]

theorem mapAnchorsFrom_eq {z : Tokenizer src} (before : Text) (ended : z.err = none) (fn : AnchorFn σ)
    (split : src = before ++ (tokens.flatMap HtmlToken.raw ++ z.last)) (state : σ) (b : Text) :
    mapAnchorsFrom z fn tokens before.length state b = .ok (b ++ replaced fn tokens state) := by
  induction tokens generalizing before state b with
  | nil =>
      have past : ¬before.length + z.last.length < src.length := by simp [split]
      simp only [mapAnchorsFrom, ended, if_neg past, replaced, append_nil]
  | cons tok rest ih =>
      rw [flatMap_cons, append_assoc, ← append_assoc] at split
      have inside : ¬src.length < before.length + tok.raw.length := by simp [split]
      have slice : (src.take (before.length + tok.raw.length)).drop before.length = tok.raw := by
        rw [split, ← length_append, take_left, drop_left]
      have further := fun state b => ih _ split state b
      rw [length_append] at further
      have skipped : (!tok.startTag || !isAnchorTag tok.raw || tok.data ≠ text "a") = !tok.isAnchor := by
        simp [HtmlToken.isAnchor]
      simp only [mapAnchorsFrom, if_neg inside, slice, further, skipped, replaced]
      cases tok.isAnchor <;> simp

theorem mapAnchors_eq (ended : z.err = none) : mapAnchors z fn state = .ok (replaced fn z.tokens state) :=
  mapAnchorsFrom_eq [] ended fn z.whole.symm state []

theorem mapAnchors_iff (ended : z.err = none) (fn : AnchorFn σ) (state : σ) :
    mapAnchors z fn state = .ok (replaced fn z.tokens state ++ z.last) ↔ z.last = [] := by
  rw [mapAnchors_eq ended, Except.ok.injEq, self_eq_append_right]

/-- The document comes back with only the replaced anchors changed exactly if the
tokenizer ends without a text of its own; so do the two rewritings. -/
theorem anchors_only_iff (z : Tokenizer src) (ended : z.err = none) :
    ((∀ (σ : Type) (fn : AnchorFn σ) (state : σ),
        mapAnchors z fn state = .ok (replaced fn z.tokens state ++ z.last)) ↔ z.last = []) ∧
    (∀ (σ : Type) (fn : AnchorFn σ) (state : σ), (∀ state attrs raw, (fn state attrs raw).1 = none) →
      (mapAnchors z fn state = .ok src ↔ z.last = [])) ∧ (∀ tables rewrite, rewriteLinks tables z (some rewrite) =
      .ok (replaced (linkRewriter tables rewrite) z.tokens 0 ++ z.last) ↔ z.last = []) ∧
    (markUnsubscribeAnchors z = .ok (replaced unsubscribeMarker z.tokens () ++ z.last) ↔ z.last = []) := by
  refine ⟨⟨fun frames => ?_, fun clean σ fn state => (mapAnchors_iff ended fn state).mpr clean⟩, ?_,
    fun tables rewrite => mapAnchors_iff ended _ 0, mapAnchors_iff ended _ ()⟩
  · exact (mapAnchors_iff ended unsubscribeMarker ()).mp (frames Unit _ ())
  · intro σ fn state never
    have same := mapAnchors_iff ended fn state
    rwa [replaced_never never, z.whole] at same

end

def unfinishedTag : Tokenizer (text "<a href=") where
  tokens := []
  last := text "<a href="
  whole := rfl

def footer : Tokenizer (text "<p><a href='\x7b\x7bunsubscribe_url\x7d\x7d'>stop</a>") where
  tokens := [{ raw := text "<p>", startTag := true, data := text "p" },
    { raw := text "<a href='\x7b\x7bunsubscribe_url\x7d\x7d'>", startTag := true, data := text "a"
      attr := [{ key := text "href", val := text "\x7b\x7bunsubscribe_url\x7d\x7d" }] },
    { raw := text "stop" }, { raw := text "</a>" }]
  last := []
  whole := rfl

theorem footer_marked : markUnsubscribeAnchors footer = .ok
    (text "<p><a href=\"\x7b\x7bunsubscribe_url\x7d\x7d\" data-sp-track=\"off\">stop</a>") :=
  ((anchors_only_iff footer rfl).2.2.2.mpr rfl).trans (by decide +kernel)

/-- A document that ends inside a tag loses the tag. -/
theorem unfinished_tag_lost : markUnsubscribeAnchors unfinishedTag = .ok [] := by
  decide

end Sendplane.Render
