import Sendplane.Data.Checks
import Sendplane.Render.Escape

namespace Sendplane.Render

open Data Store Checks List

/-! # The walk in memory

Containers are references, so a walk that wrote to the wrong one would change the
caller's bindings.  It refines the walk on values and only writes to containers it
has made itself.
-/

inductive Val where
  | null
  | scalar (literal : Text)
  | string (value : Text)
  | ref (address : Nat)
deriving DecidableEq

inductive Cell where
  | array (items : List Val)
  | object (fields : List (Text × Val))
  | strings (items : List Text)
  | stringMap (fields : List (Text × Text))
deriving DecidableEq

abbrev Memory := List Cell

/-- The value that is stored, if no chain of references is longer than `fuel`. -/
def read : Nat → Memory → Val → Option Binding
  | _, _, .null => some .null
  | _, _, .scalar literal => some (.scalar literal)
  | _, _, .string s => some (.string s)
  | 0, _, .ref _ => none
  | fuel + 1, memory, .ref address =>
      match memory[address]? with
      | none => none
      | some (.array items) => (items.mapM (read fuel memory)).map .array
      | some (.object fields) =>
          ((fields.map Prod.snd).mapM (read fuel memory)).map fun values =>
            .object ((fields.map Prod.fst).zip values)
      | some (.strings items) => some (.strings items)
      | some (.stringMap fields) => some (.stringMap fields)

def markerOf : List (Text × Val) → Option Text
  | [(key, .string raw)] => if key = htmlMarkerKey then some raw else none
  | _ => none

def putField (key : Text) (v : Val) : Cell → Cell
  | .object fields => .object (fields ++ [(key, v)])
  | cell => cell

def putItem (index : Nat) (v : Val) : Cell → Cell
  | .array items => .array (items.set index v)
  | cell => cell

/-- Walks the entries in order and writes each result to the container `out`. -/
def storeAll {κ : Type} (walkOne : Val → Memory → Option (Val × Memory)) (out : Nat)
    (put : κ → Val → Cell → Cell) : List (κ × Val) → Memory → Option Memory
  | [], memory => some memory
  | (key, v) :: rest, memory =>
      (walkOne v memory).bind fun (walked, memory) =>
        storeAll walkOne out put rest (memory.modify out (put key walked))

def numbered (items : List Val) : List (Nat × Val) :=
  items.zipIdx.map Prod.swap

def walk (escape : Bool) : Nat → Val → Memory → Option (Val × Memory)
  | _, .null, memory => some (.null, memory)
  | _, .scalar literal, memory => some (.scalar literal, memory)
  | _, .string s, memory => some (.string (walkString escape s), memory)
  | 0, .ref _, _ => none
  | fuel + 1, .ref address, memory =>
      let out := memory.length
      match memory[address]? with
      | none => none
      | some (.object fields) =>
          match markerOf fields with
          | some raw => some (.string raw, memory)
          | none =>
              (storeAll (walk escape fuel) out putField fields (memory ++ [.object []])).map fun memory =>
                (.ref out, memory)
      | some (.stringMap fields) =>
          (storeAll (walk escape fuel) out putField (fields.map fun (key, s) => (key, .string s))
            (memory ++ [.object []])).map fun memory => (.ref out, memory)
      | some (.array items) =>
          (storeAll (walk escape fuel) out putItem (numbered items)
            (memory ++ [.array (List.replicate items.length .null)])).map fun memory => (.ref out, memory)
      | some (.strings items) =>
          (storeAll (walk escape fuel) out putItem (numbered (items.map .string))
            (memory ++ [.array (List.replicate items.length .null)])).map fun memory => (.ref out, memory)

variable {fuel : Nat} {v : Val} {b : Binding}

attribute [local simp] read walk

theorem read_of_extends {before after : Memory} (extended : before <+: after) (stored : read fuel before v = some b) :
    read fuel after v = some b := by
  induction fuel generalizing v b with
  | zero => cases v <;> simp_all
  | succ fuel ih =>
      cases v with
      | null | scalar | string => simpa using stored
      | ref address =>
          rw [read] at stored ⊢
          cases found : before[address]? with
          | none => simp [found] at stored
          | some cell =>
              obtain ⟨added, rfl⟩ := extended
              have inside : address < before.length := (List.getElem?_eq_some_iff.mp found).1
              rw [getElem?_append_left inside, found]
              simp only [found] at stored
              cases cell with
              | array | object =>
                  obtain ⟨values, walked, rfl⟩ := Option.map_eq_some_iff.mp stored
                  have later := mapM_some_iff.mpr ((mapM_some_iff.mp walked).imp fun _ _ => ih)
                  simp [later]
              | strings | stringMap => exact stored

/-- The same cells from `start` on, as far as the first memory goes. -/
def Agrees (start : Nat) (memory other : Memory) : Prop :=
  ∀ address, start ≤ address → address < memory.length → other[address]? = memory[address]?

theorem Agrees.refl (start : Nat) (memory : Memory) : Agrees start memory memory :=
  fun _ _ _ => rfl

/-- The walk ends, leaves the cells there were alone, and its result is made of
new cells only, so it can be read whatever happens to the old ones. -/
def Walks (escape : Bool) (fuel : Nat) (memory : Memory) (v : Val) (b : Binding) : Prop :=
  ∃ walked after, walk escape fuel v memory = some (walked, after) ∧ memory <+: after ∧
    ∀ other, Agrees memory.length after other → read fuel other walked = some (walkBindings escape b)

variable {memory : Memory}

theorem prefix_modify (extended : base <+: memory) (beyond : base.length ≤ address) :
    base <+: memory.modify address change := by
  rw [prefix_iff_getElem?] at extended ⊢
  intro index inside
  rw [getElem?_modify_ne _ _ (by omega)]
  exact extended index inside

section

variable {κ : Type} (put : κ → Val → Cell → Cell)

/-- The loop invariant: `base` is the memory before the container was made. -/
theorem storeAll_walks (walks : ∀ {memory v b}, read fuel memory v = some b → Walks escape fuel memory v b)
    (stored : Forall₂ (fun item b => read fuel base item.2 = some b) items values) (extended : base <+: memory)
    (here : memory[base.length]? = some cell) :
    ∃ results after, storeAll (walk escape fuel) base.length put items memory = some after ∧
      base <+: after ∧ memory.length ≤ after.length ∧
      (∀ address, base.length < address → address < memory.length → after[address]? = memory[address]?) ∧
      results.length = items.length ∧ after[base.length]? = some (((items.map Prod.fst).zip results).foldl
        (fun cell entry => put entry.1 entry.2 cell) cell) ∧ ∀ other, Agrees (base.length + 1) after other →
        Forall₂ (fun walked b => read fuel other walked = some (walkBindings escape b)) results values := by
  induction stored generalizing memory cell with
  | nil => exact ⟨[], memory, rfl, extended, le_rfl, fun _ _ _ => rfl, rfl, here, fun _ _ => .nil⟩
  | @cons item b rest later first _ ih =>
      obtain ⟨key, v⟩ := item
      have room : base.length < memory.length := (List.getElem?_eq_some_iff.mp here).1
      obtain ⟨walked, grown, ran, longer, readable⟩ := walks (read_of_extends extended first)
      have same : ∀ address, address < memory.length → grown[address]? = memory[address]? := by
        intro address inside
        rw [prefix_iff_getElem?.mp longer address inside, getElem?_eq_getElem inside]
      have cellHere : (grown.modify base.length (put key walked))[base.length]? = some (put key walked cell) := by
        rw [getElem?_modify_eq, same _ room, here]
        rfl
      obtain ⟨results, after, stored, kept, size, unchanged, count, final, results_read⟩ :=
        ih (prefix_modify (extended.trans longer) le_rfl) cellHere
      rw [length_modify] at size unchanged
      have grew := longer.length_le
      have stays : ∀ address, base.length < address → address < grown.length → after[address]? = grown[address]? := by
        intro address above inside
        rw [unchanged address above inside, getElem?_modify_ne _ _ (by omega)]
      refine ⟨walked :: results, after, ?_, kept, by omega, ?_, by simp [count], final, fun other agrees => ?_⟩
      · rw [storeAll, ran]
        exact stored
      · intro address above inside
        rw [stays address above (by omega), same address inside]
      · refine .cons (readable other fun address above inside => ?_) (results_read other agrees)
        rw [agrees address (by omega) (by omega), stays address (by omega) inside]

theorem container_walks (walks : ∀ {memory v b}, read fuel memory v = some b → Walks escape fuel memory v b)
    (stored : Forall₂ (fun item b => read fuel memory item.2 = some b) items values) :
    ∃ results after, storeAll (walk escape fuel) memory.length put items (memory ++ [fresh]) = some after ∧
      memory <+: after ∧ results.length = items.length ∧ ∀ other, Agrees memory.length after other →
        other[memory.length]? = some (((items.map Prod.fst).zip results).foldl
          (fun cell entry => put entry.1 entry.2 cell) fresh) ∧
        results.mapM (read fuel other) = some (values.map (walkBindings escape)) := by
  have here : (memory ++ [fresh])[memory.length]? = some fresh := by simp
  obtain ⟨results, after, ran, kept, -, -, count, final, readable⟩ :=
    storeAll_walks put walks stored (prefix_append memory [fresh]) here
  refine ⟨results, after, ran, kept, count, fun other agrees => ⟨?_, ?_⟩⟩
  · rw [agrees memory.length le_rfl (List.getElem?_eq_some_iff.mp final).1]
    exact final
  · rw [mapM_some_iff, forall₂_map_right_iff]
    exact readable other fun address above inside => agrees address (by omega) inside

end

theorem foldl_putField (fields added : List (Text × Val)) :
    added.foldl (fun cell entry => putField entry.1 entry.2 cell) (.object fields) = .object (fields ++ added) := by
  induction added generalizing fields with
  | nil => simp
  | cons entry rest ih =>
      exact (ih _).trans (by simp)

theorem foldl_putItem (done results : List Val) :
    ((range' done.length results.length).zip results).foldl (fun cell entry => putItem entry.1 entry.2 cell)
      (.array (done ++ replicate results.length .null)) = .array (done ++ results) := by
  induction results generalizing done with
  | nil => simp
  | cons v rest ih =>
      have next := ih (done ++ [v])
      simpa [range'_succ, putItem, replicate_succ] using next

theorem numbered_fst : (numbered items).map Prod.fst = range' 0 items.length := by
  rw [numbered, map_map]
  exact zipIdx_map_snd 0 items

variable {values : List Binding}

theorem forall₂_numbered (paired : Forall₂ related items values) :
    Forall₂ (fun item b => related item.2 b) (numbered items) values := by
  have snd : (numbered items).map Prod.snd = items := by
    rw [numbered, map_map]
    exact zipIdx_map_fst 0 items
  rw [← snd, forall₂_map_left_iff] at paired
  exact paired

theorem walkItems_eq : walkItems escape items = items.map (walkBindings escape) := by
  induction items with
  | nil => rfl
  | cons item rest ih => rw [walkItems, ih, map_cons]

theorem walkFields_zip (keys : List Text) (values : List Binding) :
    walkFields escape (keys.zip values) = keys.zip (values.map (walkBindings escape)) := by
  induction keys generalizing values with
  | nil => rfl
  | cons key rest ih =>
      cases values with
      | nil => rfl
      | cons value values => rw [map_cons, zip_cons_cons, walkFields, ih, zip_cons_cons]

theorem read_string (stored : read fuel memory v = some (.string raw)) : v = .string raw := by
  cases v with
  | null | scalar => simp at stored
  | string s => simpa using stored
  | ref address =>
      cases fuel with
      | zero => simp at stored
      | succ fuel =>
          rw [read] at stored
          split at stored <;> simp at stored

theorem markerOf_eq (stored : Forall₂ (fun v b => read fuel memory v = some b) (fields.map Prod.snd) values) :
    markerOf fields = htmlMarker ((fields.map Prod.fst).zip values) := by
  match fields, values, stored with
  | [], [], _ => rfl
  | [(key, v)], [b], .cons first _ =>
      cases b with
      | string raw =>
          obtain rfl := read_string first
          rfl
      | null | scalar | array | object | strings | stringMap =>
          cases v with
          | string raw => simp at first
          | null | scalar | ref => rfl
  | _ :: _ :: _, _ :: _ :: _, _ => simp [markerOf, htmlMarker]

section

variable {escape : Bool} {fuel : Nat}
  (walks : ∀ {memory v b}, read fuel memory v = some b → Walks escape fuel memory v b) {memory : Memory}

include walks

theorem array_walks (paired : Forall₂ (fun v b => read fuel memory v = some b) items values)
    (starts : walk escape (fuel + 1) v memory = (storeAll (walk escape fuel) memory.length putItem (numbered items)
      (memory ++ [.array (replicate items.length .null)])).map (.ref memory.length, ·))
    (same : walkBindings escape b = .array (values.map (walkBindings escape))) : Walks escape (fuel + 1) memory v b := by
  obtain ⟨results, after, ran, kept, count, readable⟩ := container_walks putItem walks (forall₂_numbered paired)
  refine ⟨.ref memory.length, after, by rw [starts, ran]; rfl, kept, fun other agrees => ?_⟩
  obtain ⟨here, walked⟩ := readable other agrees
  have sized : results.length = items.length := by simpa [numbered] using count
  have filled := foldl_putItem [] results
  rw [sized, nil_append, length_nil] at filled
  rw [numbered_fst, filled] at here
  simp [here, walked, same]

theorem object_walks (paired : Forall₂ (fun v b => read fuel memory v = some b) (fields.map Prod.snd) values)
    (starts : walk escape (fuel + 1) v memory = (storeAll (walk escape fuel) memory.length putField fields
      (memory ++ [.object []])).map (.ref memory.length, ·))
    (same : walkBindings escape b = .object ((fields.map Prod.fst).zip (values.map (walkBindings escape)))) :
    Walks escape (fuel + 1) memory v b := by
  obtain ⟨results, after, ran, kept, count, readable⟩ := container_walks putField walks (forall₂_map_left_iff.mp paired)
  refine ⟨.ref memory.length, after, by rw [starts, ran]; rfl, kept, fun other agrees => ?_⟩
  obtain ⟨here, walked⟩ := readable other agrees
  have sized : (fields.map Prod.fst).length = results.length := by simp [count]
  rw [foldl_putField] at here
  simp [here, map_fst_zip sized.le, map_snd_zip sized.ge, walked, same]

end

theorem forall₂_strings {α : Type} (items : List α) (content : α → Text) :
    Forall₂ (fun v b => read fuel memory v = some b) (items.map fun item => .string (content item))
      (items.map fun item => .string (content item)) := by
  rw [forall₂_map_left_iff, forall₂_map_right_iff]
  exact forall₂_same.mpr fun item _ => by simp

/-- Walking in memory is walking the value, and keeps every cell there was. -/
theorem walk_walks (stored : read fuel memory v = some b) : Walks escape fuel memory v b := by
  induction fuel generalizing memory v b with
  | zero =>
      cases v with
      | ref address => simp at stored
      | null | scalar | string =>
          simp only [read, Option.some.injEq] at stored
          subst stored
          exact ⟨_, memory, rfl, prefix_rfl, fun _ _ => rfl⟩
  | succ fuel ih =>
      cases v with
      | null | scalar | string =>
          simp only [read, Option.some.injEq] at stored
          subst stored
          exact ⟨_, memory, rfl, prefix_rfl, fun _ _ => rfl⟩
      | ref address =>
          rw [read] at stored
          cases found : memory[address]? with
          | none => simp [found] at stored
          | some cell =>
          simp only [found] at stored
          cases cell with
          | object fields =>
              obtain ⟨values, paired, rfl⟩ := Option.map_eq_some_iff.mp stored
              rw [mapM_some_iff] at paired
              have marker := markerOf_eq paired
              cases unwrapped : markerOf fields with
              | some raw =>
                  refine ⟨.string raw, memory, ?_, prefix_rfl, fun other _ => ?_⟩
                  · simp [found, unwrapped]
                  · rw [walkBindings, ← marker, unwrapped, read]
              | none =>
                  refine object_walks ih paired (by simp [found, unwrapped]) ?_
                  rw [walkBindings, ← marker, unwrapped, walkFields_zip]
          | stringMap fields =>
              cases stored
              have paired : Forall₂ (fun v b => read fuel memory v = some b)
                  ((fields.map fun (key, s) => (key, Val.string s)).map Prod.snd)
                  (fields.map fun field => .string field.2) := by
                rw [map_map]
                exact forall₂_strings fields Prod.snd
              exact object_walks ih paired (by simp [found]) (by simp [walkBindings, zip_map'])
          | array items =>
              obtain ⟨values, paired, rfl⟩ := Option.map_eq_some_iff.mp stored
              refine array_walks ih (mapM_some_iff.mp paired) (by simp [found]) ?_
              rw [walkBindings, walkItems_eq]
          | strings items =>
              cases stored
              exact array_walks ih (forall₂_strings items id) (by simp [found]) (by simp [walkBindings])

/-- Escaping ends, leaves the caller's memory alone and keeps the shape of the
bindings; no raw markup is left exactly when no key had any. -/
theorem escaped_bindings_sanitized_iff {fuel : Nat} {memory : Memory} {v : Val} {b : Binding}
    (stored : read fuel memory v = some b) :
    ∃ walked after out, walk true fuel v memory = some (walked, after) ∧ memory <+: after ∧ read fuel after v = some b ∧
      read fuel after walked = some out ∧ SameShape b out ∧ (sanitized b out = true ↔ keysPlain b = true) := by
  have walks : Walks true fuel memory v b := walk_walks stored
  obtain ⟨walked, after, ran, kept, readable⟩ := walks
  refine ⟨walked, after, escapeBindings b, ran, kept, read_of_extends kept stored, ?_, sameShape_walk b, ?_⟩
  · exact readable after (.refl _ after)
  · rw [escapeBindings, sanitized_walk]

def shopMemory : Memory :=
  [.array [.ref 1, .string (text "5 < 6")],
    .object [(text "name", .string (text "Tom & \"Jerry\"")), (text "note", .ref 2)],
    .object [(text "$html", .string (text "<b>new</b>"))]]

def shopBinding : Binding :=
  .array [.object [(text "name", .string (text "Tom & \"Jerry\"")),
      (text "note", .object [(text "$html", .string (text "<b>new</b>"))])],
    .string (text "5 < 6")]

theorem shop_bindings_are_sanitized :
    read 3 shopMemory (.ref 0) = some shopBinding ∧ keysPlain shopBinding = true ∧
      ∃ walked after out, walk true 3 (.ref 0) shopMemory = some (walked, after) ∧
        read 3 after walked = some out ∧ sanitized shopBinding out = true := by
  have stored : read 3 shopMemory (.ref 0) = some shopBinding := rfl
  obtain ⟨walked, after, out, ran, -, -, readable, -, clean⟩ := escaped_bindings_sanitized_iff stored
  exact ⟨stored, by decide, walked, after, out, ran, readable, clean.mpr (by decide)⟩

/-- The keys of an object keep their markup. -/
theorem raw_key_survives_escaping :
    ∃ b out, read 1 [.object [(text "<b>", .string (text "x"))]] (.ref 0) = some b ∧
      walk true 1 (.ref 0) [.object [(text "<b>", .string (text "x"))]] =
        some (.ref 1, [.object [(text "<b>", .string (text "x"))], .object [(text "<b>", .string (text "x"))]]) ∧
      read 1 [.object [(text "<b>", .string (text "x"))], .object [(text "<b>", .string (text "x"))]] (.ref 1) =
        some out ∧ sanitized b out = false :=
  ⟨_, _, rfl, by decide, rfl, by decide⟩

end Sendplane.Render
