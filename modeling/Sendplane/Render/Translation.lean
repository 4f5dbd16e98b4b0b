import Sendplane.Render.Engine

namespace Sendplane.Render

open Data Store List

/-- The same answer, and states that stay related. -/
def Alike {α σ τ : Type} (Related : σ → τ → Prop) (left : α × σ) (right : α × τ) : Prop :=
  left.1 = right.1 ∧ Related left.2 right.2

variable {σ τ : Type}

theorem Alike.pairs {α : Type} {left : α × σ} {right : α × τ} (alike : Alike Related left right) :
    ∃ answer after after', left = (answer, after) ∧ right = (answer, after') ∧ Related after after' := by
  obtain ⟨answer, after⟩ := left
  obtain ⟨answer', after'⟩ := right
  obtain ⟨same, related⟩ := alike
  cases same
  exact ⟨answer, after, after', rfl, rfl, related⟩

theorem collect_alike (limit : Int) {onTag : Text → Binding → σ → Except Text Text × σ}
    {onTag' : Text → Binding → τ → Except Text Text × τ} (answers : ∀ key bindings left right, Related left right →
      Alike Related (onTag key bindings left) (onTag' key bindings right)) (rendering : Rendering) (buf : Text)
    (left : σ) (right : τ) (related : Related left right) :
    Alike Related (collect limit onTag rendering buf left) (collect limit onTag' rendering buf right) := by
  induction rendering generalizing buf left right with
  | done | fail | panics => exact ⟨rfl, related⟩
  | write chunk rest ih =>
      unfold collect
      split
      · exact ⟨rfl, related⟩
      · exact ih (buf ++ chunk) left right related
  | tTag key bindings rest ih =>
      obtain ⟨answer, after, after', first, second, kept⟩ := (answers key bindings left right related).pairs
      unfold collect
      rw [first, second]
      cases answer with
      | ok out => exact ih out buf after after' kept
      | error value => exact ⟨rfl, kept⟩

section Simulation

variable {e : Engine} {st : I18nState} {Shared : e.TrCache → e.TrCache → Prop}

/-- The same warnings, and caches that serve alike. -/
def SameProgress (Shared : e.TrCache → e.TrCache → Prop) (left right : Progress e.Template) : Prop :=
  left.warnings = right.warnings ∧ Shared left.cache right.cache

variable {left right : Progress e.Template}

theorem SameProgress.warn (same : SameProgress Shared left right) (w : Warning) :
    SameProgress Shared (left.warn w) (right.warn w) := by
  obtain ⟨warnings, shared⟩ := same
  unfold Progress.warn
  rw [warnings]
  split
  · exact ⟨warnings, shared⟩
  · exact ⟨rfl, shared⟩

/-- The caches give every translation the same value. -/
def TemplatesAlike (e : Engine) (st : I18nState) (Shared : e.TrCache → e.TrCache → Prop) : Prop :=
  ∀ loc key value left right, st.bundle.value loc key = some value → SameProgress Shared left right →
    Alike (SameProgress Shared) (e.template st loc key value left) (e.template st loc key value right)

theorem value_of_lookup {key loc value : Text} (found : st.lookup key = some (loc, value)) :
    st.bundle.value loc key = some value := by
  obtain ⟨candidate, -, here⟩ := exists_of_findSome?_eq_some found
  obtain ⟨stored, present, pair⟩ := Option.map_eq_some_iff.mp here
  cases pair
  exact present

theorem translate_alike (templates : TemplatesAlike e st Shared) (key : Text) (bindings : Binding)
    (left right : Progress e.Template) (same : SameProgress Shared left right) :
    Alike (SameProgress Shared) (e.translate st room key bindings left) (e.translate st room key bindings right) := by
  -- On the room left; a translation renders with one less.
  induction room generalizing key bindings left right with
  | zero =>
      unfold Engine.translate
      split
      · exact ⟨rfl, same.warn _⟩
      · exact ⟨rfl, same.warn _⟩
  | succ room ih =>
      unfold Engine.translate
      split
      · exact ⟨rfl, same.warn _⟩
      rename_i loc value found
      have templated := templates loc key value left right (value_of_lookup found) same
      obtain ⟨parsed, after, after', first, second, kept⟩ := templated.pairs
      rw [first, second]
      cases parsed with
      | error detail => exact ⟨rfl, kept.warn _⟩
      | ok tpl =>
          have collected := collect_alike 0 ih (e.render tpl bindings) [] after after' kept
          obtain ⟨out, last, last', rendered, rendered', ended⟩ := collected.pairs
          dsimp only
          rw [rendered, rendered']
          rcases out with (detail | value) | out
          · exact ⟨rfl, ended.warn _⟩
          · exact ⟨rfl, ended⟩
          · exact ⟨rfl, ended⟩

theorem renderPart_alike (templates : TemplatesAlike e st Shared) (same : SameProgress Shared left right) :
    Alike (SameProgress Shared) (e.renderPart st maxOutput tpl vars left) (e.renderPart st maxOutput tpl vars right) :=
  collect_alike maxOutput (translate_alike templates) (e.render tpl vars) [] left right same

theorem partFailed_alike (same : SameProgress Shared left right) :
    Alike Shared (e.partFailed part stop left) (e.partFailed part stop right) := by
  obtain ⟨warnings, shared⟩ := same
  cases stop with
  | error detail => exact ⟨by simp [Engine.partFailed, warnings], shared⟩
  | panicked value => exact ⟨rfl, shared⟩

theorem renderAll_alike (templates : TemplatesAlike e st Shared) (same : SameProgress Shared left right) :
    Alike Shared (e.renderAll maxOutput st subject html body base left)
      (e.renderAll maxOutput st subject html body base right) := by
  obtain ⟨subjectOut, one, one', first, first', afterOne⟩ := (renderPart_alike templates same).pairs
  obtain ⟨htmlOut, two, two', second, second', afterTwo⟩ := (renderPart_alike templates afterOne).pairs
  obtain ⟨bodyOut, three, three', third, third', afterThree⟩ := (renderPart_alike templates afterTwo).pairs
  unfold Engine.renderAll
  dsimp only
  rw [first, first']
  cases subjectOut with
  | error stop => exact partFailed_alike afterOne
  | ok subjectOut =>
      dsimp only
      split
      · exact ⟨congrArg (Prod.mk _) afterOne.1, afterOne.2⟩
      rw [second, second']
      cases htmlOut with
      | error stop => exact partFailed_alike afterTwo
      | ok htmlOut =>
          dsimp only
          rw [third, third']
          cases bodyOut with
          | error stop => exact partFailed_alike afterThree
          | ok bodyOut => exact ⟨congrArg (Prod.mk _) afterThree.1, afterThree.2⟩

theorem renderMessage_alike (templates : TemplatesAlike e (e.stateFor req) Shared) {left right : e.TrCache}
    (shared : Shared left right) : Alike Shared (e.renderMessage req left) (e.renderMessage req right) := by
  unfold Engine.renderMessage
  split
  · exact ⟨rfl, shared⟩
  split
  · exact ⟨rfl, shared⟩
  split
  · exact ⟨rfl, shared⟩
  · exact renderAll_alike templates ⟨rfl, shared⟩

end Simulation

section Recorded

variable (e : Engine)

/-- The entry is the parsed value that the bundle has for its locale and key. -/
def PutBy (b : I18nBundle) (entry : TrKey × e.Template) : Prop :=
  entry.1.bundle = e.bundleChecksum b ∧
    ∃ value, b.value entry.1.locale entry.1.key = some value ∧ e.parse value = .ok entry.2

/-- Every entry was put there by a render of one of the bundles. -/
def Recorded (bundles : List I18nBundle) (cache : e.TrCache) : Prop :=
  ∀ entry ∈ cache.entries, ∃ b ∈ bundles, PutBy e b entry

variable {e}

theorem recorded_new (capacity : Int) : Recorded e bundles (Lru.new capacity) := by
  intro entry member
  simp [Lru.new] at member

theorem template_warnings : (e.template st loc key value p).2.warnings = p.warnings := by
  unfold Engine.template
  dsimp only
  split
  · rfl
  · split <;> rfl

theorem Recorded.template (among : st.bundle ∈ bundles) (sum : st.sum = e.bundleChecksum st.bundle)
    (present : st.bundle.value loc key = some value) (recorded : Recorded e bundles p.cache) :
    Recorded e bundles (e.template st loc key value p).2.cache := by
  have looked : Recorded e bundles (p.cache.get ⟨st.sum, loc, key⟩).2 :=
    fun entry member => recorded entry (Lru.mem_get member)
  unfold Engine.template
  dsimp only
  split
  · rename_i tpl cache hit
    rw [hit] at looked
    exact looked
  · rename_i cache miss
    rw [miss] at looked
    split
    · exact looked
    · rename_i tpl parsed
      intro entry member
      rcases Lru.mem_put member with rfl | kept
      · exact ⟨st.bundle, among, sum, value, present, parsed⟩
      · exact looked entry kept

theorem Recorded.renderMessage (among : req.version.i18n ∈ bundles) (recorded : Recorded e bundles cache) :
    Recorded e bundles (e.renderMessage req cache).2 := by
  -- The simulation of a render by itself, with the origin of the entries as what is shared.
  let Shared (left right : e.TrCache) : Prop := left = right ∧ Recorded e bundles left
  have templates : TemplatesAlike e (e.stateFor req) Shared := by
    intro loc key value left right present same
    obtain ⟨warnings, caches, known⟩ := same
    have equal : left = right := by
      cases left
      simp_all
    subst equal
    exact ⟨rfl, rfl, rfl, known.template among rfl present⟩
  have rendered := renderMessage_alike templates ⟨rfl, recorded⟩
  exact rendered.2.2

theorem recorded_cacheAfter (among : ∀ req ∈ requests, req.version.i18n ∈ bundles)
    (recorded : Recorded e bundles cache) : Recorded e bundles (e.cacheAfter requests cache) := by
  induction requests generalizing cache with
  | nil => exact recorded
  | cons req rest ih =>
      apply ih
      · intro later member
        exact among later (mem_cons_of_mem _ member)
      · exact recorded.renderMessage (among req mem_cons_self)

end Recorded

/-- Bundles written alike give the key named like the mark of a locale the same
value wherever both define it. -/
def LocaleKeyAgrees (first second : I18nBundle) : Prop :=
  writeBundle first = writeBundle second → ∀ loc left right,
    first.value loc (text "locale") = some left → second.value loc (text "locale") = some right → left = right

theorem localeKeyAgrees_self : LocaleKeyAgrees b b := by
  intro _ loc left right inFirst inSecond
  rw [inFirst] at inSecond
  exact Option.some.inj inSecond

variable {e : Engine} {loc key : Text}

theorem value_of_checksum (injective : Function.Injective e.sha256) (agrees : LocaleKeyAgrees first second)
    (same : e.bundleChecksum first = e.bundleChecksum second) (inFirst : first.value loc key = some left)
    (inSecond : second.value loc key = some right) : left = right := by
  have written := injective (hex_inj same)
  by_cases mark : key = text "locale"
  · subst mark
    exact agrees written loc left right inFirst inSecond
  · exact value_of_writeBundle written mark inFirst inSecond

theorem template_answer (injective : Function.Injective e.sha256) (sum : st.sum = e.bundleChecksum st.bundle)
    (agree : ∀ b ∈ bundles, LocaleKeyAgrees b st.bundle) (present : st.bundle.value loc key = some value)
    (recorded : Recorded e bundles p.cache) : (e.template st loc key value p).1 = e.parse value := by
  unfold Engine.template
  dsimp only
  split
  · rename_i tpl cache hit
    have member := Lru.mem_of_get (congrArg Prod.fst hit)
    obtain ⟨b, among, checksum, stored, inFirst, parsed⟩ := recorded _ member
    have same := value_of_checksum injective (agree b among) (checksum.symm.trans sum) inFirst present
    rw [← same]
    exact parsed.symm
  · split
    · rename_i parsed
      exact parsed.symm
    · rename_i parsed
      exact parsed.symm

/-- What is rendered does not depend on what was rendered before, if the bundles
that are written out alike agree on the key `locale`. -/
theorem render_ignores_cache {e : Engine} (injective : Function.Injective e.sha256) (capacity : Int)
    (history : List RenderRequest) (req : RenderRequest)
    (agree : ∀ earlier ∈ history, LocaleKeyAgrees earlier.version.i18n req.version.i18n) :
    (e.renderMessage req (e.cacheAfter history (Lru.new capacity))).1 = (e.renderMessage req (Lru.new capacity)).1 := by
  let bundles := req.version.i18n :: history.map fun earlier => earlier.version.i18n
  let Shared (left right : e.TrCache) : Prop := Recorded e bundles left ∧ Recorded e bundles right
  have agreeAll : ∀ b ∈ bundles, LocaleKeyAgrees b req.version.i18n := by
    intro b member
    rcases mem_cons.mp member with rfl | earlier
    · exact localeKeyAgrees_self
    · obtain ⟨request, before, rfl⟩ := mem_map.mp earlier
      exact agree request before
  have templates : TemplatesAlike e (e.stateFor req) Shared := by
    intro loc key value left right present same
    obtain ⟨warnings, inLeft, inRight⟩ := same
    constructor
    · rw [template_answer injective rfl agreeAll present inLeft, template_answer injective rfl agreeAll present inRight]
    · refine ⟨?_, inLeft.template mem_cons_self rfl present, inRight.template mem_cons_self rfl present⟩
      rw [template_warnings, template_warnings, warnings]
  have cached : Recorded e bundles (e.cacheAfter history (Lru.new capacity)) := by
    apply recorded_cacheAfter _ (recorded_new capacity)
    intro earlier member
    exact mem_cons_of_mem _ (mem_map_of_mem member)
  have rendered := renderMessage_alike templates ⟨cached, recorded_new capacity⟩
  exact rendered.1

def tagOnly : Engine where
  Template := Text
  parse source := .ok source
  render tpl bindings := if tpl = text "\x7b% t 'locale' %\x7d" then
      .tTag (text "locale") bindings fun out => .write out .done
    else .write tpl .done
  sha256 := id

def askLocale (locales : List (Text × List (Text × Text))) : RenderRequest where
  version := {
    subjectTpl := text "\x7b% t 'locale' %\x7d"
    i18n := { locales := .ofList (locales.map fun (loc, kv) => (loc, Std.ExtTreeMap.ofList kv compare)) } }
  maxOutput := 2097152
  locales := [text "c"]

def threeLocales : RenderRequest :=
  askLocale [(text "a", []), (text "c", [(text "locale", text "c")]), (text "d", [])]

def twoLocales : RenderRequest :=
  askLocale [(text "a", [(text "locale", text "c")]), (text "c", [(text "locale", text "d")])]

theorem other_bundle_is_rendered :
    Function.Injective tagOnly.sha256 ∧ (tagOnly.renderMessage twoLocales (Lru.new 4096)).1 =
        (.ok { subject := text "d", html := [], text := [] }, []) ∧
      (tagOnly.renderMessage twoLocales (tagOnly.cacheAfter [threeLocales] (Lru.new 4096))).1 =
        (.ok { subject := text "c", html := [], text := [] }, []) :=
  ⟨Function.injective_id, by decide +kernel, by decide +kernel⟩

def changedLocales : RenderRequest :=
  askLocale [(text "a", [(text "locale", text "c")]), (text "c", [(text "locale", text "e")])]

theorem own_bundle_is_rendered :
    (tagOnly.renderMessage twoLocales (tagOnly.cacheAfter [changedLocales, twoLocales] (Lru.new 4096))).1 =
      (.ok { subject := text "d", html := [], text := [] }, []) := by
  refine (render_ignores_cache Function.injective_id 4096 [changedLocales, twoLocales] twoLocales ?_).trans
    (by decide +kernel)
  intro earlier member
  simp only [mem_cons, not_mem_nil, or_false] at member
  rcases member with rfl | rfl
  · intro same
    exact absurd same (by decide +kernel)
  · exact localeKeyAgrees_self

end Sendplane.Render
