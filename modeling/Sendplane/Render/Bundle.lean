import Sendplane.Data.Encoding
import Sendplane.Data.Groups
import Sendplane.Store.Basic

namespace Sendplane.Render

open Data Store List

/-- The translations of a version, by locale and key. -/
structure I18nBundle where
  defaultLocale : Text := []
  /-- By locale, then by key.  A locale may be there without any key. -/
  locales : Table Text (Table Text Text) := ∅

def I18nBundle.value (b : I18nBundle) (loc key : Text) : Option Text :=
  (b.locales[loc]?).bind fun kv => kv[key]?

def writeField (name value : Text) : Text :=
  decimal name.length ++ 58 :: name ++ 61 :: decimal value.length ++ 58 :: value ++ [10]

def writeBundle (b : I18nBundle) : Text :=
  writeField (text "bundle_default") b.defaultLocale ++ b.locales.toList.flatMap fun (loc, kv) =>
      writeField (text "locale") loc ++ kv.toList.flatMap fun (key, value) => writeField key value

theorem writeField_inj (same : writeField name value ++ rest = writeField name' value' ++ rest') :
    name = name' ∧ value = value' ∧ rest = rest' := by
  simp only [writeField, append_assoc, cons_append] at same
  obtain ⟨nameLength, names⟩ := decimal_inj (by decide) same
  obtain ⟨sameName, values⟩ := append_inj names nameLength
  obtain ⟨valueLength, values⟩ := decimal_inj (by decide) (tail_eq_of_cons_eq values)
  obtain ⟨sameValue, ends⟩ := append_inj values valueLength
  exact ⟨sameName, sameValue, tail_eq_of_cons_eq ends⟩

def writeFields (fields : List (Text × Text)) : Text :=
  fields.flatMap fun (name, value) => writeField name value

theorem writeField_ne_nil : writeField name value ≠ [] := by
  simp [writeField]

theorem writeFields_inj (same : writeFields first = writeFields second) : first = second := by
  induction first generalizing second with
  | nil =>
      cases second with
      | nil => rfl
      | cons field rest => simp [writeFields, writeField_ne_nil] at same
  | cons field rest ih =>
      cases second with
      | nil => simp [writeFields, writeField_ne_nil] at same
      | cons field' rest' =>
          obtain ⟨name, value, rest⟩ := writeField_inj same
          rw [ih rest, Prod.ext name value]

def localeGroups (b : I18nBundle) : List (Text × List (Text × Text)) :=
  b.locales.toList.map fun (loc, kv) => (loc, kv.toList)

theorem writeBundle_eq : writeBundle b = writeFields ((text "bundle_default", b.defaultLocale) ::
      Groups.fields (text "locale") (localeGroups b)) := by
  simp [writeBundle, writeFields, Groups.fields, localeGroups, flatMap_map, flatMap_assoc]

theorem localeGroups_ordered : Groups.Ordered (localeGroups b) where
  names := by
    rw [localeGroups, map_map]
    exact Table.toList_pairwise b.locales
  keys := by
    intro group member
    obtain ⟨⟨loc, kv⟩, -, rfl⟩ := mem_map.mp member
    exact Table.toList_pairwise kv

theorem mem_content (other : key ≠ text "locale") (defined : b.value loc key = some value) :
    (loc, key, value) ∈ Groups.content (text "locale") (localeGroups b) := by
  obtain ⟨kv, group, entry⟩ := Option.bind_eq_some_iff.mp defined
  rw [Groups.content, mem_flatMap]
  refine ⟨(loc, kv.toList), ?_, ?_⟩
  · exact mem_map_of_mem (Table.mem_toList.mpr group)
  · exact mem_map_of_mem (mem_filter.mpr ⟨Table.mem_toList.mpr entry, by simpa using other⟩)

/-- Bundles that are written alike have the same values, except under a key that
is called like the field a locale starts with. -/
theorem value_of_writeBundle (same : writeBundle first = writeBundle second) (other : key ≠ text "locale")
    (inFirst : first.value loc key = some left) (inSecond : second.value loc key = some right) : left = right := by
  rw [writeBundle_eq, writeBundle_eq] at same
  have fields := tail_eq_of_cons_eq (writeFields_inj same)
  exact Groups.agree_of_fields localeGroups_ordered localeGroups_ordered fields loc key left right
    (mem_content other inFirst) (mem_content other inSecond)

end Sendplane.Render
