import Sendplane.Data.Encoding
import Sendplane.Store.Delivery
import Sendplane.Store.Records

namespace Sendplane.Postgres

open Data Store List

inductive Value where
  | text (value : Text)
  | int (value : Int)
  | bool (value : Bool)
  | time (value : Option Time)
  | kind (value : TrackingKind)
  | errorClass (value : ErrorClass)
  | json (value : Payload)

structure Statement where
  sql : Text
  params : List Value

def joinComma (parts : List Text) : Text :=
  (text ", ").intercalate parts

def add (a : List Text × List Value) (value : Value) : List Text × List Value :=
  (a.1 ++ [text "$" ++ itoa (a.2.length + 1)], a.2 ++ [value])

def addRow (a : List Text × List Value) (row : List Value) : List Text × List Value :=
  let added := row.foldl add ([], a.2)
  (a.1 ++ [text "(" ++ joinComma added.1 ++ text ")"], added.2)

def insertInto (table : Text) (rows : List (List Value)) : Option Statement :=
  if rows = [] then none
  else
    let (tuples, params) := rows.foldl addRow ([], [])
    some ⟨text "INSERT INTO " ++ table ++ text " VALUES " ++ joinComma tuples ++ text " ON CONFLICT DO NOTHING", params⟩

def maxParams : Nat := 65535

/-- Parameters are numbered with 16 bits; a statement with more is refused. -/
def Accepted (statement : Option Statement) : Prop :=
  ∀ q ∈ statement, q.params.length ≤ maxParams

instance (statement : Option Statement) : Decidable (Accepted statement) :=
  inferInstanceAs (Decidable (∀ q ∈ statement, _))

theorem foldl_add (a : List Text × List Value) : (row.foldl add a).2 = a.2 ++ row := by
  induction row generalizing a with
  | nil => simp
  | cons value rest ih => simp [ih, add]

variable {rows : List (List Value)}

theorem length_foldl_addRow (a : List Text × List Value) (wide : ∀ row ∈ rows, row.length = columns) :
    (rows.foldl addRow a).2.length = a.2.length + columns * rows.length := by
  induction rows generalizing a with
  | nil => simp
  | cons row rest ih =>
      obtain ⟨first, others⟩ := forall_mem_cons.mp wide
      simp only [foldl_cons, ih _ others, addRow, foldl_add, length_append, length_cons, Nat.mul_succ]
      omega

theorem accepted_insertInto_iff (columns : Nat) (wide : ∀ row ∈ rows, row.length = columns) :
    Accepted (insertInto table rows) ↔ columns * rows.length ≤ maxParams := by
  unfold Accepted insertInto
  split
  case isTrue empty => simp [empty]
  case isFalse => simp [length_foldl_addRow _ wide]

end Sendplane.Postgres
