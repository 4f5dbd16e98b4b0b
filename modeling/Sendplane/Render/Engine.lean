import Sendplane.Data.Lru
import Sendplane.Data.Strings
import Sendplane.Render.Bundle
import Sendplane.Render.Escape

namespace Sendplane.Render

open Data Data.Strings Store

/-! # Rendering a message version

The template language is a parameter.  At a translation tag it asks the engine for
a translation, which is itself rendered; its parse result is cached under the
checksum of the bundle.
-/

/-- What a rendering does next.  A tag carries the bindings its translation
sees: those around it and its arguments. -/
inductive Rendering where
  | done
  | fail (e : Text)
  | panics (value : Text)
  | write (chunk : Text) (rest : Rendering)
  | tTag (key : Text) (bindings : Binding) (rest : Text → Rendering)

structure Liquid where
  Template : Type
  parse : Text → Except Text Template
  render : Template → Binding → Rendering

inductive WarningCode where
  | missingKey | badTranslation | translationDepth
deriving DecidableEq

structure Warning where
  code : WarningCode
  key : Text
  locale : Text
  detail : Text := []
deriving DecidableEq

structure TrKey where
  bundle : Text
  locale : Text
  key : Text
deriving DecidableEq

structure Engine extends Liquid where
  sha256 : Text → Text

abbrev Engine.TrCache (e : Engine) := Lru TrKey e.Template

structure I18nState where
  bundle : I18nBundle
  sum : Text
  chain : List Text

/-- What a render changes: its own warnings, and the cache of the engine. -/
structure Progress (α : Type) where
  warnings : List Warning := []
  cache : Lru TrKey α

def Progress.warn {α : Type} (p : Progress α) (w : Warning) : Progress α :=
  if w ∈ p.warnings then p else { p with warnings := p.warnings ++ [w] }

inductive Stop where
  | error (e : Text)
  | panicked (value : Text)
deriving DecidableEq

def tooLarge (limit : Int) : Text :=
  text "render: output too large: over " ++ text (toString limit) ++ text " bytes"

/-- Runs a rendering into a writer that takes at most `limit` bytes; without a
limit it takes any number.  `onTag` answers the tags, or panics with a value. -/
def collect {σ : Type} (limit : Int) (onTag : Text → Binding → σ → Except Text Text × σ) :
    Rendering → Text → σ → Except Stop Text × σ
  | .done, buf, state => (.ok buf, state)
  | .fail e, _, state => (.error (.error e), state)
  | .panics value, _, state => (.error (.panicked value), state)
  | .write chunk rest, buf, state =>
      if limit > 0 ∧ (buf.length + chunk.length : Int) > limit then (.error (.error (tooLarge limit)), state)
      else collect limit onTag rest (buf ++ chunk) state
  | .tTag key bindings rest, buf, state =>
      match onTag key bindings state with
      | (.ok out, state) => collect limit onTag (rest out) buf state
      | (.error value, state) => (.error (.panicked value), state)

def maxTranslationDepth : Nat := 4

namespace I18nState

variable (st : I18nState)

def lookup (key : Text) : Option (Text × Text) :=
  st.chain.findSome? fun loc => (st.bundle.value loc key).map fun value => (loc, value)

def requested : Text :=
  st.chain.headD []

end I18nState

namespace Engine

variable (e : Engine) (st : I18nState)

def template (loc key value : Text) (p : Progress e.Template) : Except Text e.Template × Progress e.Template :=
  let ck : TrKey := { bundle := st.sum, locale := loc, key }
  match p.cache.get ck with
  | (some tpl, cache) => (.ok tpl, { p with cache })
  | (none, cache) =>
      match e.parse value with
      | .error detail => (.error detail, { p with cache })
      | .ok tpl => (.ok tpl, { p with cache := cache.put ck tpl })

/-- Answers a translation tag; `room` is how much deeper translations may nest.
Only a panic is an error here. -/
def translate (room : Nat) (key : Text) (bindings : Binding) (p : Progress e.Template) :
    Except Text Text × Progress e.Template :=
  match st.lookup key with
  | none => (.ok key, p.warn { code := .missingKey, key, locale := st.requested })
  | some (loc, value) =>
      match room with
      | 0 => (.ok value, p.warn { code := .translationDepth, key, locale := loc })
      | room + 1 =>
          match e.template st loc key value p with
          | (.error detail, p) => (.ok value, p.warn { code := .badTranslation, key, locale := loc, detail })
          | (.ok tpl, p) =>
              match collect 0 (translate room) (e.render tpl bindings) [] p with
              | (.ok out, p) => (.ok out, p)
              | (.error (.error detail), p) =>
                  (.ok value, p.warn { code := .badTranslation, key, locale := loc, detail })
              | (.error (.panicked value), p) => (.error value, p)

def renderPart (maxOutput : Int) (tpl : e.Template) (vars : Binding) (p : Progress e.Template) :
    Except Stop Text × Progress e.Template :=
  collect maxOutput (e.translate st maxTranslationDepth) (e.render tpl vars) [] p

end Engine

structure Output where
  subject : Text
  html : Text
  text : Text
deriving DecidableEq

structure RenderVersion where
  subjectTpl : Text := []
  htmlTpl : Text := []
  textTpl : Text := []
  defaultLocale : Text := []
  i18n : I18nBundle := {}

structure RenderRecipient where
  email : Text := []
  name : Text := []
  locale : Text := []
  vars : List (Text × Binding) := []

structure Bindings where
  recipient : RenderRecipient := {}
  vars : List (Text × Binding) := []
  tenantVars : List (Text × Binding) := []
  campaignID : Text := []
  campaignName : Text := []
  unsubscribeURL : Text := []
  locale : Text := []

def languageOf (tag : Text) : Text :=
  match tag.findIdx? fun char => char = 45 || char = 95 with
  | some index => if index > 0 then tag.take index else []
  | none => []

def addLocale (chain : List Text) (loc : Text) : List Text :=
  let loc := trimSpace loc
  if loc = [] ∨ loc ∈ chain then chain else chain ++ [loc]

def localeChain (requested : List Text) (versionDefault bundleDefault : Text) : List Text :=
  (requested ++ [versionDefault, bundleDefault]).foldl
    (fun chain loc => addLocale (addLocale chain loc) (languageOf loc)) []

def overlay (base own : List (Text × Binding)) : List (Text × Binding) :=
  base.filter (fun field => (own.lookup field.1).isNone) ++ own

def baseBindings (b : Bindings) (locale : Text) : Binding :=
  .object [
    (text "recipient", .object [
      (text "email", .string b.recipient.email), (text "name", .string b.recipient.name),
      (text "locale", .string locale), (text "vars", .object b.recipient.vars)]),
    (text "vars", .object (overlay b.vars b.recipient.vars)),
    (text "tenant", .object b.tenantVars),
    (text "campaign", .object [(text "id", .string b.campaignID), (text "name", .string b.campaignName)]),
    (text "unsubscribe_url", .string b.unsubscribeURL),
    (text "locale", .string locale)]

def headerInjection : Text := text "render: subject contains a line break"

abbrev Answer := Except Text Output × List Warning

/-- One request to render a version, for the locales in order of preference, by
a renderer that caps each part at `maxOutput`. -/
structure RenderRequest where
  version : RenderVersion
  maxOutput : Int
  locales : List Text := []
  bindings : Bindings := {}

namespace Engine

variable (e : Engine)

def bundleChecksum (b : I18nBundle) : Text :=
  hex (e.sha256 (writeBundle b))

/-- A part that does not render.  A recovered panic loses the warnings: they are
a result that only a return sets. -/
def partFailed (part : Text) (stop : Stop) (p : Progress e.Template) : Answer × e.TrCache :=
  match stop with
  | .error detail => ((.error (text "render: " ++ part ++ text ": " ++ detail), p.warnings), p.cache)
  | .panicked value => ((.error (text "render: panic: " ++ value), []), p.cache)

/-- Subject, HTML and text in turn, with one translation context for all. -/
def renderAll (maxOutput : Int) (st : I18nState) (subject html body : e.Template) (base : Binding) (p : Progress e.Template) :
    Answer × e.TrCache :=
  let rawVars := rawBindings base
  match e.renderPart st maxOutput subject rawVars p with
  | (.error stop, p) => e.partFailed (text "subject") stop p
  | (.ok subject, p) =>
      if containsAny subject (text "\r\n") then ((.error headerInjection, p.warnings), p.cache)
      else match e.renderPart st maxOutput html (escapeBindings base) p with
        | (.error stop, p) => e.partFailed (text "html") stop p
        | (.ok html, p) =>
            match e.renderPart st maxOutput body rawVars p with
            | (.error stop, p) => e.partFailed (text "text") stop p
            | (.ok body, p) => ((.ok { subject, html, text := body }, p.warnings), p.cache)

def preferredLocale (locales : List Text) : Text :=
  (locales.find? fun loc => trimSpace loc ≠ []).getD []

def firstNonEmpty (values : List Text) : Text :=
  (values.find? fun value => value ≠ []).getD []

def parsePart (part source : Text) : Except Text e.Template :=
  match e.parse source with
  | .ok tpl => .ok tpl
  | .error detail => .error (text "render: " ++ part ++ text ": " ++ detail)

def stateFor (req : RenderRequest) : I18nState where
  bundle := req.version.i18n
  sum := e.bundleChecksum req.version.i18n
  chain := localeChain req.locales req.version.defaultLocale req.version.i18n.defaultLocale

def renderMessage (req : RenderRequest) (cache : e.TrCache) : Answer × e.TrCache :=
  match e.parsePart (text "subject") req.version.subjectTpl with
  | .error detail => ((.error detail, []), cache)
  | .ok subject =>
      match e.parsePart (text "html") req.version.htmlTpl with
      | .error detail => ((.error detail, []), cache)
      | .ok html =>
          match e.parsePart (text "text") req.version.textTpl with
          | .error detail => ((.error detail, []), cache)
          | .ok body =>
              let locale := firstNonEmpty [req.bindings.locale, req.bindings.recipient.locale,
                preferredLocale req.locales]
              e.renderAll req.maxOutput (e.stateFor req) subject html body (baseBindings req.bindings locale)
                { cache }

def cacheAfter (requests : List RenderRequest) (cache : e.TrCache) : e.TrCache :=
  requests.foldl (fun cache req => (e.renderMessage req cache).2) cache

end Engine

end Sendplane.Render
