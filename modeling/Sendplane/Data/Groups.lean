import Sendplane.Data.Table

namespace Sendplane.Data

open List

/-! # Groups of fields written as one list

A list of named groups, each in key order, is written field by field, the name of
a group under a reserved key.  A group may have that key itself, and then the list
can be read in more than one way.
-/

namespace Groups

variable {κ : Type} [Ord κ] (reserved : κ)

/-- A reading of the fields that are left, from inside a group; `last` is the
key that the group has got to.  It yields what it reads under other keys. -/
inductive Reads : κ → Option κ → List (κ × κ) → List (κ × κ × κ) → Prop where
  | done {group last} : Reads group last [] []
  | entry {group last key value rest found} (other : key ≠ reserved)
      (ordered : ∀ before ∈ last, compare before key = .lt) (later : Reads group (some key) rest found) :
      Reads group last ((key, value) :: rest) ((group, key, value) :: found)
  | key {group last value rest found} (ordered : ∀ before ∈ last, compare before reserved = .lt)
      (later : Reads group (some reserved) rest found) : Reads group last ((reserved, value) :: rest) found
  | mark {group last next rest found} (ordered : compare group next = .lt)
      (later : Reads next none rest found) : Reads group last ((reserved, next) :: rest) found

def Agree (first second : List (κ × κ × κ)) : Prop :=
  ∀ group key left right, (group, key, left) ∈ first → (group, key, right) ∈ second → left = right

variable {first second : List (κ × κ × κ)}

omit [Ord κ] in
theorem Agree.symm (agree : Agree first second) : Agree second first :=
  fun group key left right inSecond inFirst => (agree group key right left inFirst inSecond).symm

variable {reserved} [Std.TransOrd κ] {key : κ}

theorem lt_irrefl (before : compare key key = .lt) : False := by
  simp at before

variable {group : κ} {last : Option κ}

/-- A reading only goes on to later keys of its group and to later groups. -/
theorem Reads.later (reads : Reads reserved group last fields found) :
    ∀ entry ∈ found, (entry.1 = group ∧ ∀ before ∈ last, compare before entry.2.1 = .lt) ∨
      compare group entry.1 = .lt := by
  induction reads with
  | done => simp
  | entry other ordered later ih =>
      intro entry member
      rcases mem_cons.mp member with rfl | member
      · exact .inl ⟨rfl, ordered⟩
      · refine (ih entry member).imp (fun inside => ⟨inside.1, fun before isLast => ?_⟩) id
        exact Std.TransCmp.lt_trans (ordered before isLast) (inside.2 _ rfl)
  | key ordered later ih =>
      intro entry member
      refine (ih entry member).imp (fun inside => ⟨inside.1, fun before isLast => ?_⟩) id
      exact Std.TransCmp.lt_trans (ordered before isLast) (inside.2 _ rfl)
  | mark ordered later ih =>
      intro entry member
      refine .inr ?_
      rcases ih entry member with inside | beyond
      · exact inside.1 ▸ ordered
      · exact Std.TransCmp.lt_trans ordered beyond

/-- The group has got to the reserved key or beyond, so the next reserved field
starts a group. -/
def Past (reserved : κ) (last : Option κ) : Prop :=
  ∃ key ∈ last, compare key reserved ≠ .lt

theorem Past.next (past : Past reserved last) (ordered : ∀ before ∈ last, compare before key = .lt) :
    Past reserved (some key) := by
  obtain ⟨before, isLast, beyond⟩ := past
  exact ⟨key, rfl, fun below => beyond (Std.TransCmp.lt_trans (ordered before isLast) below)⟩

theorem past_reserved : Past reserved (some reserved) :=
  ⟨reserved, rfl, lt_irrefl⟩

variable {rest : List (κ × κ)}

omit [Std.TransOrd κ] in
theorem Reads.mark_of_past {next : κ} (past : Past reserved last)
    (reads : Reads reserved group last ((reserved, next) :: rest) found) :
    compare group next = .lt ∧ Reads reserved next none rest found := by
  cases reads with
  | entry other => exact absurd rfl other
  | key ordered =>
      obtain ⟨before, isLast, beyond⟩ := past
      exact absurd (ordered before isLast) beyond
  | mark ordered later => exact ⟨ordered, later⟩

theorem agree_cons (leftReads : Reads reserved left (some key) rest first)
    (rightReads : Reads reserved right (some key) rest second) (agree : Agree first second)
    (leftBound : ∀ entry ∈ first, entry.1 = left ∨ compare right entry.1 = .lt)
    (rightBound : ∀ entry ∈ second, entry.1 = right ∨ compare left entry.1 = .lt) :
    Agree ((left, key, value) :: first) ((right, key, value) :: second) := by
  intro group name leftValue rightValue inFirst inSecond
  rcases mem_cons.mp inFirst with isHead | laterFirst <;>
    rcases mem_cons.mp inSecond with isHead' | laterSecond
  · cases isHead
    cases isHead'
    rfl
  · cases isHead
    rcases rightBound _ laterSecond with same | beyond
    · rcases rightReads.later _ laterSecond with inside | beyond
      · exact (lt_irrefl (inside.2 _ rfl)).elim
      · exact (lt_irrefl (same ▸ beyond)).elim
    · exact (lt_irrefl beyond).elim
  · cases isHead'
    rcases leftBound _ laterFirst with same | beyond
    · rcases leftReads.later _ laterFirst with inside | beyond
      · exact (lt_irrefl (inside.2 _ rfl)).elim
      · exact (lt_irrefl (same ▸ beyond)).elim
    · exact (lt_irrefl beyond).elim
  · exact agree group name leftValue rightValue laterFirst laterSecond

/-- What two readings of one list can differ in.  They are in step, or one has
just started a group where the other took a reserved key, or both have to start
a group at the next reserved field. -/
structure Determined (reserved : κ) (fields : List (κ × κ)) : Prop where
  sync : ∀ {group last first second}, Reads reserved group last fields first →
    Reads reserved group last fields second → Agree first second
  off : ∀ {left right last first second}, Past reserved last → Reads reserved left none fields first →
    Reads reserved right last fields second → Agree first second
  forced : ∀ {left right leftLast rightLast first second}, Past reserved leftLast → Past reserved rightLast →
    Reads reserved left leftLast fields first → Reads reserved right rightLast fields second →
    Agree first second ∧ (∀ entry ∈ first, entry.1 = left ∨ compare right entry.1 = .lt) ∧
      ∀ entry ∈ second, entry.1 = right ∨ compare left entry.1 = .lt

theorem Reads.beyond (reads : Reads reserved group none fields found) (ordered : compare before group = .lt) :
    ∀ entry ∈ found, compare before entry.1 = .lt := by
  intro entry member
  rcases reads.later entry member with inside | beyond
  · exact inside.1 ▸ ordered
  · exact Std.TransCmp.lt_trans ordered beyond

theorem Reads.inside_or_beyond (reads : Reads reserved group last fields found) :
    ∀ entry ∈ found, entry.1 = group ∨ compare group entry.1 = .lt :=
  fun entry member => (reads.later entry member).imp And.left id

section

theorem Determined.sync_cons (ih : Determined reserved rest) (left : Reads reserved group last (field :: rest) first)
    (right : Reads reserved group last (field :: rest) second) : Agree first second := by
  cases left with
  | entry other ordered later =>
      cases right with
      | entry _ _ later' =>
          exact agree_cons later later' (ih.sync later later') later.inside_or_beyond later'.inside_or_beyond
      | key | mark => exact absurd rfl other
  | key ordered later =>
      cases right with
      | entry other => exact absurd rfl other
      | key _ later' => exact ih.sync later later'
      | mark _ later' => exact (ih.off past_reserved later' later).symm
  | mark ordered later =>
      cases right with
      | entry other => exact absurd rfl other
      | key _ later' => exact ih.off past_reserved later later'
      | mark _ later' => exact ih.sync later later'

theorem Determined.off_cons (ih : Determined reserved rest) (past : Past reserved last)
    (left : Reads reserved leftGroup none (field :: rest) first)
    (right : Reads reserved rightGroup last (field :: rest) second) : Agree first second := by
  cases left with
  | entry other ordered later =>
      cases right with
      | entry _ ordered' later' =>
          have next := past.next ordered'
          obtain ⟨agree, leftBound, rightBound⟩ := ih.forced next next later later'
          exact agree_cons later later' agree leftBound rightBound
      | key | mark => exact absurd rfl other
  | key ordered later =>
      obtain ⟨-, later'⟩ := right.mark_of_past past
      exact (ih.off past_reserved later' later).symm
  | mark ordered later =>
      obtain ⟨-, later'⟩ := right.mark_of_past past
      exact ih.sync later later'

theorem Determined.forced_cons (ih : Determined reserved rest) (leftPast : Past reserved leftLast)
    (rightPast : Past reserved rightLast) (left : Reads reserved leftGroup leftLast (field :: rest) first)
    (right : Reads reserved rightGroup rightLast (field :: rest) second) :
    Agree first second ∧ (∀ entry ∈ first, entry.1 = leftGroup ∨ compare rightGroup entry.1 = .lt) ∧
      ∀ entry ∈ second, entry.1 = rightGroup ∨ compare leftGroup entry.1 = .lt := by
  cases left with
  | entry other ordered later =>
      cases right with
      | entry _ ordered' later' =>
          obtain ⟨agree, leftBound, rightBound⟩ := ih.forced (leftPast.next ordered) (rightPast.next ordered') later later'
          refine ⟨agree_cons later later' agree leftBound rightBound, ?_, ?_⟩
          · exact forall_mem_cons.mpr ⟨.inl rfl, leftBound⟩
          · exact forall_mem_cons.mpr ⟨.inl rfl, rightBound⟩
      | key | mark => exact absurd rfl other
  | key ordered =>
      obtain ⟨before, isLast, beyond⟩ := leftPast
      exact absurd (ordered before isLast) beyond
  | mark ordered later =>
      obtain ⟨ordered', later'⟩ := right.mark_of_past rightPast
      refine ⟨ih.sync later later', fun entry member => ?_, fun entry member => ?_⟩
      · exact .inr (later.beyond ordered' entry member)
      · exact .inr (later'.beyond ordered entry member)

end

theorem determined (fields : List (κ × κ)) : Determined reserved fields := by
  induction fields with
  | nil =>
      have nothing : ∀ {group last found}, Reads reserved group last [] found → found = [] := by
        intro group last found reads
        cases reads
        rfl
      refine ⟨fun left _ => ?_, fun _ left _ => ?_, fun _ _ left right => ?_⟩
      · simp [nothing left, Agree]
      · simp [nothing left, Agree]
      · simp [nothing left, nothing right, Agree]
  | cons field rest ih => exact ⟨ih.sync_cons, ih.off_cons, ih.forced_cons⟩

/-- The fields of the groups, each after the field that names it. -/
def fields (reserved : κ) (groups : List (κ × List (κ × κ))) : List (κ × κ) :=
  groups.flatMap fun (name, entries) => (reserved, name) :: entries

def content [DecidableEq κ] (reserved : κ) (groups : List (κ × List (κ × κ))) : List (κ × κ × κ) :=
  groups.flatMap fun (name, entries) =>
    (entries.filter fun entry => entry.1 ≠ reserved).map fun entry => (name, entry)

/-- Groups and keys in order, each once. -/
structure Ordered (groups : List (κ × List (κ × κ))) : Prop where
  names : (groups.map Prod.fst).Pairwise fun first second => compare first second = .lt
  keys : ∀ group ∈ groups, (group.2.map Prod.fst).Pairwise fun first second => compare first second = .lt

omit [Std.TransOrd κ] in
theorem reads_entries [DecidableEq κ]
    (ordered : (entries.map Prod.fst).Pairwise fun first second => compare first second = .lt)
    (fresh : ∀ before ∈ last, ∀ entry ∈ entries, compare before entry.1 = .lt)
    (after : ∀ last, Reads reserved name last rest found) :
    Reads reserved name last (entries ++ rest)
      (((entries.filter fun entry => entry.1 ≠ reserved).map fun entry => (name, entry)) ++ found) := by
  induction entries generalizing last with
  | nil => exact after last
  | cons entry others ih =>
      obtain ⟨key, value⟩ := entry
      rw [map_cons, pairwise_cons] at ordered
      have later := @ih (some key) ordered.2 fun before isKey other member => by
        cases isKey
        exact ordered.1 _ (mem_map_of_mem member)
      have first : ∀ before ∈ last, compare before key = .lt := fun before isLast =>
        fresh before isLast (key, value) mem_cons_self
      by_cases isReserved : key = reserved
      · subst isReserved
        simpa using Reads.key first later
      · simpa [isReserved] using Reads.entry isReserved first later

omit [Std.TransOrd κ] in
theorem reads_groups [DecidableEq κ] (ordered : Ordered ((name, entries) :: groups)) :
    Reads reserved name none (entries ++ fields reserved groups) (content reserved ((name, entries) :: groups)) := by
  induction groups generalizing name entries with
  | nil => exact reads_entries (ordered.keys _ mem_cons_self) (by simp) fun _ => .done
  | cons group more ih =>
      obtain ⟨names, keys⟩ := ordered
      rw [map_cons, pairwise_cons] at names
      have later := ih ⟨names.2, fun other member => keys other (mem_cons_of_mem _ member)⟩
      have next : compare name group.1 = .lt := names.1 _ (mem_map_of_mem mem_cons_self)
      exact reads_entries (keys _ mem_cons_self) (by simp) fun _ => .mark next later

/-- The written fields determine what every group holds under other keys. -/
theorem agree_of_fields [DecidableEq κ] {first second : List (κ × List (κ × κ))} (firstOrdered : Ordered first)
    (secondOrdered : Ordered second) (same : fields reserved first = fields reserved second) :
    Agree (content reserved first) (content reserved second) := by
  cases first with
  | nil => simp [Agree, content]
  | cons left first =>
      cases second with
      | nil => simp [Agree, content]
      | cons right second =>
          obtain ⟨name, entries⟩ := left
          obtain ⟨name', entries'⟩ := right
          simp only [fields, flatMap_cons, cons_append, cons.injEq, Prod.mk.injEq, true_and] at same
          obtain ⟨rfl, rest⟩ := same
          have leftReads : Reads reserved name none _ _ := reads_groups firstOrdered
          have rightReads : Reads reserved name none _ _ := reads_groups secondOrdered
          rw [fields, rest] at leftReads
          exact (determined _).sync leftReads rightReads

end Groups

end Sendplane.Data
