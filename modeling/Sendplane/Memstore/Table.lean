import Sendplane.Data.Strings
import Sendplane.Store.Basic

namespace Sendplane.Memstore

open Data Store

structure Field (α β : Type) where
  get : α → β
  set : α → β → α

structure Meta (α : Type) where
  id : Field α Text
  tenant : Field α Text
  /-- `none` for aggregates without optimistic concurrency. -/
  version : Option (Field α Int)
  created : Field α Time
  updated : Option (Field α Time)
  /-- Reduces every timestamp of a row about to be stored. -/
  truncateRow : α → α

section

variable {α : Type} (info : Meta α)

def setField {β : Type} (field : Option (Field α β)) (row : α) (value : β) : α :=
  match field with
  | none => row
  | some field => field.set row value

def createdRow (tenant : Text) (now : Time) (v : α) : α :=
  let v := info.tenant.set v tenant
  let v := if info.created.get v = 0 then info.created.set v now else v
  let v := setField info.updated v now
  setField info.version v 1

def create (tenant : Text) (now : Time) (newID : Text) (rows : Table Text α) (v : α) :
    Except Err α × Table Text α :=
  let v := if info.id.get v = [] then info.id.set v newID else v
  match rows[info.id.get v]? with
  | some _ => (.error (.wrap .conflict (info.id.get v ++ text " already exists")), rows)
  | none =>
      let v := createdRow info tenant now v
      (.ok v, rows.insert (info.id.get v) (info.truncateRow v))

def find (rows : Table Text α) (id : Text) : Except Err α :=
  match rows[id]? with
  | none => .error (.wrap .notFound id)
  | some row => .ok row

def versionOf (row : α) : Option Int :=
  info.version.map fun field => field.get row

def updatedRow (tenant : Text) (now : Time) (cur v : α) : α :=
  let v := match info.version with
    | none => v
    | some field => field.set v (field.get cur + 1)
  let v := info.tenant.set v tenant
  let v := info.created.set v (info.created.get cur)
  setField info.updated v now

def update (tenant : Text) (now : Time) (rows : Table Text α) (v : α) :
    Except Err α × Table Text α :=
  let id := info.id.get v
  match rows[id]? with
  | none => (.error (.wrap .notFound id), rows)
  | some cur =>
      if versionOf info cur ≠ versionOf info v then
        let number := fun row => text (toString ((versionOf info row).getD 0))
        (.error (.wrap .conflict
          (id ++ text " version " ++ number cur ++ text ", have " ++ number v)), rows)
      else
        let v := updatedRow info tenant now cur v
        (.ok v, rows.insert id (info.truncateRow v))

/-- Another row holds the unique key of the value; an empty key is exempt. -/
def keyTaken (key : α → Text) (rows : Table Text α) (v : α) (id : Text) : Bool :=
  key v ≠ [] && rows.toList.any fun entry => entry.1 ≠ id && key entry.2 = key v

def keyConflict (key : Text) : Err :=
  .wrap .conflict (text "key " ++ Strings.quote key ++ text " already exists")

def createUnique (key : α → Text) (tenant : Text) (now : Time) (newID : Text) (rows : Table Text α) (v : α) :
    Except Err α × Table Text α :=
  let id := if info.id.get v = [] then newID else info.id.get v
  if rows[id]?.isNone && keyTaken key rows v id then (.error (keyConflict (key v)), rows)
  else create info tenant now newID rows v

/-- Update on a table with a unique key, which is looked at after the version. -/
def updateUnique (key : α → Text) (tenant : Text) (now : Time) (rows : Table Text α) (v : α) :
    Except Err α × Table Text α :=
  let id := info.id.get v
  if (rows[id]?.any fun cur => versionOf info cur = versionOf info v) && keyTaken key rows v id then
    (.error (keyConflict (key v)), rows)
  else update info tenant now rows v

def delete (rows : Table Text α) (id : Text) : Except Err Unit × Table Text α :=
  match rows[id]? with
  | none => (.error (.wrap .notFound id), rows)
  | some _ => (.ok (), rows.erase id)

/-- The retention delete: the oldest rows first, since IDs grow with time. -/
def deleteBefore (rows : Table Text α) (before : Time) (limit : Int) (created : α → Time) (keep : α → Bool) :
    Nat × Table Text α :=
  let ids := takeLimit limit (rows.keysWhere fun _ row => created row < before && keep row)
  (ids.length, rows.eraseAll ids)

def paginate (rows : Table Text α) (page : Page) (keep : α → Bool) : Result α :=
  let page := page.normalize
  let matching := rows.toList.filter fun entry =>
    compare entry.1 page.cursor == .gt && keep entry.2
  let kept := matching.take page.limit.toNat
  { items := kept.map Prod.snd
    nextCursor := if matching.length > page.limit.toNat then (kept.getLast?.map Prod.fst).getD [] else [] }

end

variable {α : Type}

def identified (info : Meta α) (newID : Text) (v : α) : α :=
  if info.id.get v = [] then info.id.set v newID else v

/-- An update fails and changes nothing, or replaces a row that it has read at
its current version. -/
theorem update_cases (info : Meta α) (tenant : Text) (now : Time) (rows : Table Text α) (v : α) :
    (∃ failure, update info tenant now rows v = (.error failure, rows)) ∨
      ∃ cur, rows[info.id.get v]? = some cur ∧ versionOf info cur = versionOf info v ∧ update info tenant now rows v =
          (.ok (updatedRow info tenant now cur v),
            rows.insert (info.id.get v) (info.truncateRow (updatedRow info tenant now cur v))) := by
  cases stored : rows[info.id.get v]? with
  | none => exact .inl ⟨_, by simp [update, stored]; rfl⟩
  | some cur =>
      by_cases current : versionOf info cur = versionOf info v
      · refine .inr ⟨cur, rfl, current, ?_⟩
        simp [update, stored, current]
      · left
        simp only [update, stored, ne_eq, current, not_false_eq_true, ↓reduceIte]
        exact ⟨_, rfl⟩

theorem delete_cases (rows : Table Text α) (id : Text) :
    (∃ failure, delete rows id = (.error failure, rows)) ∨ delete rows id = (.ok (), rows.erase id) := by
  unfold delete
  cases rows[id]? with
  | none => exact .inl ⟨_, rfl⟩
  | some row => exact .inr rfl

theorem mem_paginate (listed : row ∈ (paginate rows page keep).items) :
    keep row = true ∧ ∃ id : Text, rows[id]? = some row := by
  simp only [paginate, List.mem_map] at listed
  obtain ⟨⟨id, _⟩, taken, rfl⟩ := listed
  have matching := List.mem_of_mem_take taken
  rw [List.mem_filter, Bool.and_eq_true] at matching
  exact ⟨matching.2.2, id, Table.mem_toList.mp matching.1⟩

end Sendplane.Memstore
