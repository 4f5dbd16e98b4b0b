import Sendplane.Data.Checks
import Sendplane.Data.Encoding
import Sendplane.Render.Engine

namespace Sendplane.Render

open Data Store

structure Prepared (α : Type) where
  versionID : Text
  locale : Text
  chain : List Text
  bundle : I18nBundle
  bundleSum : Text
  maxOutput : Int
  subject : α
  html : α
  text : α

/-- A call of the renderer for a version and a list of locales. -/
structure PrepareCall where
  versionID : Text
  version : RenderVersion
  locales : List Text

namespace PrepareCall

def key (call : PrepareCall) : Text :=
  call.versionID ++ 0 :: (Store.text ",").intercalate call.locales

/-- The chain of the list that the call was made with. -/
def chain (call : PrepareCall) : List Text :=
  localeChain call.locales call.version.defaultLocale call.version.i18n.defaultLocale

end PrepareCall

/-- The parts between the commas of the locales, one locale after another; no
locale at all is joined like one that is empty. -/
def localeParts : List Text → List Text
  | [] => [[]]
  | locales => locales.flatMap (List.splitOn 44)

theorem splitOn_join (locales : List Text) :
    ((text ",").intercalate locales).splitOn 44 = localeParts locales := by
  cases locales with
  | nil => rfl
  | cons first rest =>
      induction rest generalizing first with
      | nil => simp [localeParts]
      | cons second rest ih =>
          have joined : (text ",").intercalate (first :: second :: rest) =
              first ++ 44 :: (text ",").intercalate (second :: rest) := by
            simp [List.intercalate_cons_cons, show text "," = [44] from rfl]
          rw [joined, List.splitOn_append_cons_self, ih]
          simp [localeParts]

/-- The chain passes over an empty locale, so it is that of the parts where no
locale holds a comma. -/
theorem localeChain_parts {locales : List Text} (plain : ∀ locale ∈ locales, 44 ∉ locale)
    (versionDefault bundleDefault : Text) :
    localeChain (localeParts locales) versionDefault bundleDefault =
      localeChain locales versionDefault bundleDefault := by
  cases locales with
  | nil => rfl
  | cons first rest =>
      have alone : ∀ locale ∈ first :: rest, locale.splitOn 44 = [locale] :=
        fun locale member => List.splitOn_eq_singleton (plain locale member)
      simp only [localeParts, List.flatMap_congr alone, List.flatMap_singleton']

/-- The version ends at the first NUL, and the joined locales at their commas. -/
theorem PrepareCall.key_eq_iff {left right : PrepareCall} (leftPlain : 0 ∉ left.versionID)
    (rightPlain : 0 ∉ right.versionID) :
    left.key = right.key ↔ left.versionID = right.versionID ∧ localeParts left.locales = localeParts right.locales := by
  have whole : ∀ joined : Text, [44].intercalate (joined.splitOn 44) = joined := fun _ => List.intercalate_splitOn 44
  rw [← splitOn_join, ← splitOn_join]
  constructor
  · intro same
    obtain ⟨versions, joined⟩ := append_sep_inj leftPlain rightPlain same
    exact ⟨versions, by rw [joined]⟩
  · rintro ⟨versions, parts⟩
    rw [key, key, versions, ← whole (List.intercalate _ left.locales), parts, whole]

namespace Engine

variable (e : Engine)

def prepare (maxOutput : Int) (call : PrepareCall) : Except Text (Prepared e.Template) := do
  let subject ← e.parsePart (Store.text "subject") call.version.subjectTpl
  let html ← e.parsePart (Store.text "html") call.version.htmlTpl
  let text ← e.parsePart (Store.text "text") call.version.textTpl
  return {
    versionID := call.versionID, locale := preferredLocale call.locales
    chain := localeChain call.locales call.version.defaultLocale call.version.i18n.defaultLocale
    bundle := call.version.i18n, bundleSum := e.bundleChecksum call.version.i18n, maxOutput, subject, html, text }

abbrev PreparedCache := Lru Text (Prepared e.Template)

def prepareChain (maxOutput : Int) (cache : e.PreparedCache) (call : PrepareCall) :
    Except Text (Prepared e.Template) × e.PreparedCache :=
  match cache.get call.key with
  | (some p, cache) => (.ok p, cache)
  | (none, cache) =>
      match e.prepare maxOutput call with
      | .error detail => (.error detail, cache)
      | .ok p => (.ok p, cache.put call.key p)

def preparedAfter (maxOutput : Int) (history : List PrepareCall) (cache : e.PreparedCache) : e.PreparedCache :=
  history.foldl (fun cache call => (e.prepareChain maxOutput cache call).2) cache

/-- Whatever was prepared before, a call is answered with its own chain. -/
def KeepsChains (capacity maxOutput : Int) (used : PrepareCall → Prop) : Prop :=
  ∀ history : List PrepareCall, (∀ call ∈ history, used call) → ∀ call, used call → ∀ p,
    (e.prepareChain maxOutput (e.preparedAfter maxOutput history (.new capacity)) call).1 = .ok p → p.chain = call.chain

variable {e} {capacity maxOutput : Int} {call : PrepareCall} {used : PrepareCall → Prop} {cache : e.PreparedCache}
  {p : Prepared e.Template}

theorem prepare_chain (prepared : e.prepare maxOutput call = .ok p) : p.chain = call.chain := by
  obtain ⟨subject, -, prepared⟩ := Checks.bind_ok prepared
  obtain ⟨html, -, prepared⟩ := Checks.bind_ok prepared
  obtain ⟨text, -, prepared⟩ := Checks.bind_ok prepared
  cases prepared
  rfl

/-- Every entry was prepared for some call. -/
def Traced (maxOutput : Int) (used : PrepareCall → Prop) (cache : e.PreparedCache) : Prop :=
  ∀ entry ∈ cache.entries, ∃ call, used call ∧ entry.1 = call.key ∧ e.prepare maxOutput call = .ok entry.2

theorem Traced.prepareChain (traced : Traced maxOutput used cache) (listed : used call) :
    Traced maxOutput used (e.prepareChain maxOutput cache call).2 := by
  have looked : Traced maxOutput used (cache.get call.key).2 := fun entry member => traced entry (Lru.mem_get member)
  unfold Engine.prepareChain
  split
  case h_1 p after found => rwa [found] at looked
  case h_2 after missed =>
    rw [missed] at looked
    cases prepared : e.prepare maxOutput call with
    | error detail => exact looked
    | ok p =>
        intro entry member
        rcases Lru.mem_put member with rfl | kept
        · exact ⟨call, listed, rfl, prepared⟩
        · exact looked entry kept

theorem Traced.preparedAfter (traced : Traced maxOutput used cache) (listed : ∀ call ∈ history, used call) :
    Traced maxOutput used (e.preparedAfter maxOutput history cache) := by
  induction history generalizing cache with
  | nil => exact traced
  | cons call rest ih =>
      obtain ⟨first, others⟩ := List.forall_mem_cons.mp listed
      exact ih (traced.prepareChain first) others

/-- The call after another one with the same key is answered with what that one
has prepared. -/
theorem prepareChain_again (prepared : e.prepare maxOutput first = .ok p) (same : first.key = later.key) :
    (e.prepareChain maxOutput (e.preparedAfter maxOutput [first] (.new capacity)) later).1 = .ok p := by
  have room : (Lru.new capacity : e.PreparedCache).cap ≠ 0 := by
    unfold Lru.new
    dsimp only
    split <;> omega
  obtain ⟨cap, full⟩ := Nat.exists_eq_succ_of_ne_zero room
  have stored : e.preparedAfter maxOutput [first] (.new capacity) = { cap := cap + 1, entries := [(first.key, p)] } := by
    simp only [Engine.preparedAfter, Engine.prepareChain, Lru.get, Lru.put, prepared, List.foldl_cons, List.foldl_nil]
    simp [Lru.new] at full ⊢
    simp [full]
  simp [stored, Engine.prepareChain, Lru.get, same]

theorem keepsChains_of_keys (apart : ∀ first later p, used first → used later → e.prepare maxOutput first = .ok p →
    first.key = later.key → first.chain = later.chain) : e.KeepsChains capacity maxOutput used := by
  intro history listed call usedCall p answered
  have traced : Traced maxOutput used (e.preparedAfter maxOutput history (.new capacity)) :=
    Traced.preparedAfter (by simp [Traced, Lru.new]) listed
  unfold Engine.prepareChain at answered
  split at answered
  case h_1 found after hit =>
    cases answered
    obtain ⟨first, usedFirst, same, prepared⟩ := traced _ (Lru.mem_of_get (congrArg Prod.fst hit))
    rw [prepare_chain prepared]
    exact apart first call p usedFirst usedCall prepared same.symm
  case h_2 after missed =>
    cases prepared : e.prepare maxOutput call with
    | error detail => simp [prepared] at answered
    | ok own =>
        simp only [prepared, Except.ok.injEq] at answered
        rw [← answered]
        exact prepare_chain prepared

/-- A renderer answers every call with the chain of its own list exactly if the
lists of one version that consist of the same parts have the same chain, which
lists without commas do. -/
theorem keepsChains_iff (e : Engine) (capacity maxOutput : Int) (used : PrepareCall → Prop)
    (named : ∀ call, used call → 0 ∉ call.versionID) :
    (e.KeepsChains capacity maxOutput used ↔
      ∀ first later p, used first → used later → e.prepare maxOutput first = .ok p →
        first.versionID = later.versionID → localeParts first.locales = localeParts later.locales →
        first.chain = later.chain) ∧
      ((∀ first later, used first → used later → first.versionID = later.versionID → first.version = later.version) →
        (∀ call, used call → ∀ locale ∈ call.locales, 44 ∉ locale) → e.KeepsChains capacity maxOutput used) := by
  refine ⟨⟨?_, fun apart => ?_⟩, fun versions plain => ?_⟩
  · intro keeps first later p usedFirst usedLater prepared sameVersion sameParts
    have same := (PrepareCall.key_eq_iff (named first usedFirst) (named later usedLater)).mpr ⟨sameVersion, sameParts⟩
    rw [← prepare_chain prepared]
    exact keeps [first] (by simp [usedFirst]) later usedLater p (prepareChain_again prepared same)
  · refine keepsChains_of_keys fun first later p usedFirst usedLater prepared same => ?_
    obtain ⟨sameVersion, sameParts⟩ := (PrepareCall.key_eq_iff (named first usedFirst) (named later usedLater)).mp same
    exact apart first later p usedFirst usedLater prepared sameVersion sameParts
  · refine keepsChains_of_keys fun first later p usedFirst usedLater _ same => ?_
    obtain ⟨sameVersion, sameParts⟩ := (PrepareCall.key_eq_iff (named first usedFirst) (named later usedLater)).mp same
    rw [PrepareCall.chain, PrepareCall.chain, versions first later usedFirst usedLater sameVersion,
      ← localeChain_parts (plain first usedFirst), sameParts, localeChain_parts (plain later usedLater)]

def plainEngine : Engine where
  Template := Text
  parse := .ok
  render _ _ := .done
  sha256 := id

def koreanCall (locales : List Text) : PrepareCall :=
  ⟨text "v1", {}, locales⟩

theorem plain_locales_keep_chains :
    ∃ p, (plainEngine.prepareChain 0 (plainEngine.preparedAfter 0 [koreanCall [text "ko"]] (.new 256))
      (koreanCall [text "ko", text "en"])).1 = .ok p ∧ p.chain = [text "ko", text "en"] := by
  let used := fun call : PrepareCall => ∃ locales ⊆ [text "ko", text "en"], call = koreanCall locales
  have keeps : plainEngine.KeepsChains 256 0 used := by
    refine (keepsChains_iff plainEngine 256 0 used ?_).2 ?_ ?_
    · rintro _ ⟨locales, _, rfl⟩
      exact (by decide : 0 ∉ text "v1")
    · rintro _ _ ⟨_, _, rfl⟩ ⟨_, _, rfl⟩ _
      rfl
    · rintro _ ⟨locales, listed, rfl⟩ locale member
      exact (by decide : ∀ locale ∈ [text "ko", text "en"], 44 ∉ locale) locale (listed member)
  have earlier : used (koreanCall [text "ko"]) := ⟨_, by simp, rfl⟩
  exact ⟨_, rfl, keeps [koreanCall [text "ko"]] (by simpa using earlier) _ ⟨_, fun _ => id, rfl⟩ _ rfl⟩

/-- A recipient with the locale `ko,en` and one with `ko`, in a campaign with the
default `en`. -/
theorem joined_locales_collide :
    let first := koreanCall [text "ko,en"]
    let later := koreanCall [text "ko", text "en"]
    later.chain = [text "ko", text "en"] ∧
      ((plainEngine.prepareChain 0 (plainEngine.preparedAfter 0 [first] (.new 256)) later).1.toOption.map fun p =>
        p.chain) = some [text "ko,en"] := by
  decide +kernel

end Engine

end Sendplane.Render
