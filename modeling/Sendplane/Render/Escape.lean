import Sendplane.Store.Basic

namespace Sendplane.Render

open Store

/-- A binding value by its shape.  The last two are the typed containers that
hold strings only; `scalar` is whatever has no text in it. -/
inductive Binding where
  | null
  | scalar (literal : Text)
  | string (value : Text)
  | array (items : List Binding)
  | object (fields : List (Text × Binding))
  | strings (items : List Text)
  | stringMap (fields : List (Text × Text))
deriving Repr

def htmlMarkerKey : Text := text "$html"

/-- Exactly one entry, with a string under the marker key. -/
def htmlMarker : List (Text × Binding) → Option Text
  | [(key, .string raw)] => if key = htmlMarkerKey then some raw else none
  | _ => none

def escapeChar (char : UInt8) : Text :=
  if char = 38 then text "&amp;"
  else if char = 39 then text "&#39;"
  else if char = 60 then text "&lt;"
  else if char = 62 then text "&gt;"
  else if char = 34 then text "&#34;"
  else [char]

def escapeString (s : Text) : Text :=
  s.flatMap escapeChar

def walkString (escape : Bool) (s : Text) : Text :=
  if escape then escapeString s else s

mutual

def walkBindings (escape : Bool) : Binding → Binding
  | .null => .null
  | .string s => .string (walkString escape s)
  | .object fields =>
      match htmlMarker fields with
      | some raw => .string raw
      | none => .object (walkFields escape fields)
  | .stringMap fields => .object (fields.map fun (key, s) => (key, .string (walkString escape s)))
  | .array items => .array (walkItems escape items)
  | .strings items => .array (items.map fun s => .string (walkString escape s))
  | .scalar literal => .scalar literal

def walkItems (escape : Bool) : List Binding → List Binding
  | [] => []
  | item :: rest => walkBindings escape item :: walkItems escape rest

def walkFields (escape : Bool) : List (Text × Binding) → List (Text × Binding)
  | [] => []
  | (key, value) :: rest => (key, walkBindings escape value) :: walkFields escape rest

end

def escapeBindings (v : Binding) : Binding :=
  walkBindings true v

def rawBindings (v : Binding) : Binding :=
  walkBindings false v

def markup (char : UInt8) : Bool :=
  char = 60 || char = 62 || char = 34 || char = 39

/-- No character that could start or end markup. -/
def plain (s : Text) : Bool :=
  s.all fun char => !markup char

mutual

/-- The second value is the first with its strings escaped and its trusted
markup unwrapped; keys may be escaped or not. -/
def SameShape : Binding → Binding → Prop
  | .null, out => out = .null
  | .scalar literal, out => out = .scalar literal
  | .string s, out => out = .string (escapeString s)
  | .array items, out => ∃ outs, out = .array outs ∧ SameItems items outs
  | .object fields, out =>
      match htmlMarker fields with
      | some raw => out = .string raw
      | none => ∃ outs, out = .object outs ∧ SameFields fields outs
  | .strings items, out => out = .array (items.map fun s => .string (escapeString s))
  | .stringMap fields, out => ∃ outs, out = .object outs ∧
      List.Forall₂ (fun field result => (result.1 = field.1 ∨ result.1 = escapeString field.1) ∧
        result.2 = .string (escapeString field.2)) fields outs

def SameItems : List Binding → List Binding → Prop
  | [], outs => outs = []
  | item :: rest, outs => ∃ first later, outs = first :: later ∧ SameShape item first ∧ SameItems rest later

def SameFields : List (Text × Binding) → List (Text × Binding) → Prop
  | [], outs => outs = []
  | (key, value) :: rest, outs => ∃ key' first later, outs = (key', first) :: later ∧
      (key' = key ∨ key' = escapeString key) ∧ SameShape value first ∧ SameFields rest later

end

def plainString : Binding → Bool
  | .string s => plain s
  | _ => true

def itemsOf : Binding → List Binding
  | .array items => items
  | _ => []

def fieldsOf : Binding → List (Text × Binding)
  | .object fields => fields
  | _ => []

mutual

/-- Every string of the second value, keys included, is plain, except where the
first value holds trusted markup. -/
def sanitized : Binding → Binding → Bool
  | .null, _ => true
  | .scalar _, _ => true
  | .string _, out => plainString out
  | .array items, out => sanitizedItems items (itemsOf out)
  | .object fields, out => (htmlMarker fields).isSome || sanitizedFields fields (fieldsOf out)
  | .strings _, out => (itemsOf out).all plainString
  | .stringMap _, out => (fieldsOf out).all fun (key, value) => plain key && plainString value

def sanitizedItems : List Binding → List Binding → Bool
  | item :: rest, out :: later => sanitized item out && sanitizedItems rest later
  | _, _ => true

def sanitizedFields : List (Text × Binding) → List (Text × Binding) → Bool
  | (_, value) :: rest, (key, out) :: later => plain key && sanitized value out && sanitizedFields rest later
  | _, _ => true

end

mutual

/-- Every key of every object, other than trusted markup, is plain. -/
def keysPlain : Binding → Bool
  | .null => true
  | .scalar _ => true
  | .string _ => true
  | .array items => itemKeysPlain items
  | .object fields => (htmlMarker fields).isSome || fieldKeysPlain fields
  | .strings _ => true
  | .stringMap fields => fields.all fun (key, _) => plain key

def itemKeysPlain : List Binding → Bool
  | [] => true
  | item :: rest => keysPlain item && itemKeysPlain rest

def fieldKeysPlain : List (Text × Binding) → Bool
  | [] => true
  | (key, value) :: rest => plain key && keysPlain value && fieldKeysPlain rest

end

theorem plain_escapeChar (char : UInt8) : plain (escapeChar char) = true := by
  unfold escapeChar
  split_ifs with amp quote less greater double
  · decide
  · decide
  · decide
  · decide
  · decide
  · simp [plain, markup, quote, less, greater, double]

theorem plain_escapeString : plain (escapeString s) = true := by
  rw [plain, escapeString, List.all_flatMap, List.all_eq_true]
  intro char _
  exact plain_escapeChar char

mutual

theorem sanitized_walk : ∀ v : Binding, sanitized v (walkBindings true v) = keysPlain v
  | .null => rfl
  | .scalar _ => rfl
  | .string s => plain_escapeString
  | .array items => sanitizedItems_walk items
  | .object fields => by
      rw [sanitized, keysPlain, walkBindings]
      cases htmlMarker fields with
      | some raw => rfl
      | none => exact sanitizedFields_walk fields
  | .strings items => by
      simp [walkBindings, sanitized, keysPlain, itemsOf, plainString, walkString, plain_escapeString]
  | .stringMap fields => by
      simp [walkBindings, sanitized, keysPlain, fieldsOf, plainString, walkString, plain_escapeString,
        Function.comp_def]

theorem sanitizedItems_walk : ∀ items : List Binding,
    sanitizedItems items (walkItems true items) = itemKeysPlain items
  | [] => rfl
  | item :: rest => by
      rw [walkItems, sanitizedItems, itemKeysPlain, sanitized_walk item, sanitizedItems_walk rest]

theorem sanitizedFields_walk : ∀ fields : List (Text × Binding),
    sanitizedFields fields (walkFields true fields) = fieldKeysPlain fields
  | [] => rfl
  | (key, value) :: rest => by
      rw [walkFields, sanitizedFields, fieldKeysPlain, sanitized_walk value, sanitizedFields_walk rest]

end

mutual

theorem sameShape_walk : ∀ v : Binding, SameShape v (walkBindings true v)
  | .null => rfl
  | .scalar _ => rfl
  | .string s => rfl
  | .array items => ⟨_, rfl, sameItems_walk items⟩
  | .object fields => by
      rw [SameShape]
      cases marker : htmlMarker fields with
      | some raw => simp only [walkBindings, marker]
      | none =>
          simp only [walkBindings, marker]
          exact ⟨_, rfl, sameFields_walk fields⟩
  | .strings items => rfl
  | .stringMap fields => by
      refine ⟨_, rfl, ?_⟩
      rw [List.forall₂_map_right_iff]
      exact List.forall₂_same.mpr fun _ _ => ⟨.inl rfl, rfl⟩

theorem sameItems_walk : ∀ items : List Binding, SameItems items (walkItems true items)
  | [] => rfl
  | item :: rest => ⟨_, _, rfl, sameShape_walk item, sameItems_walk rest⟩

theorem sameFields_walk : ∀ fields : List (Text × Binding), SameFields fields (walkFields true fields)
  | [] => rfl
  | (_, value) :: rest => ⟨_, _, _, rfl, .inl rfl, sameShape_walk value, sameFields_walk rest⟩

end

end Sendplane.Render
