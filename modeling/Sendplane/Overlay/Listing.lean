import Sendplane.Memstore.Listing
import Sendplane.Overlay.Basic

namespace Sendplane.Overlay

open Data Store Memstore List

/-- Reads as a position among the virtual rows. -/
def Virtual (cursor : Text) : Prop :=
  platformCursorPrefix.isPrefixOf cursor = true

theorem virtual_append : Virtual (platformCursorPrefix ++ suffix) := by
  rw [Virtual, isPrefixOf_iff_prefix]
  exact prefix_append _ _

theorem Virtual.ne_nil (virtual : Virtual cursor) : cursor ≠ [] := by
  rintro rfl
  cases virtual

theorem position_ne_done : platformCursorPrefix ++ itoa n ≠ platformCursorDone := by
  intro same
  have dollar : itoa n = text "$" := append_cancel_left same
  have char : (36 : UInt8) ∈ itoa n := by
    rw [dollar]
    decide
  obtain sign | ⟨low, _⟩ := itoa_char char
  · cases sign
  · exact absurd low (by decide)

theorem normalize_range (page : Page) : 0 < page.normalize.limit ∧ page.normalize.limit ≤ maxPageLimit := by
  simp only [Page.normalize, defaultPageLimit, maxPageLimit]
  split <;> split <;> omega

theorem normalize_of_range (page : Page) (positive : 0 < page.limit) (bounded : page.limit ≤ maxPageLimit) :
    page.normalize = page := by
  rw [Page.normalize, if_neg (by omega), if_neg (by omega)]

section

variable {α : Type} (virt : List α) (id : α → Text) (list : Page → Op (Except Err (Result α))) (p : Provider)
  (left : Text → List α)

/-- What a page of the backing list hands out, and what its cursor leaves. -/
def Hands (size : Nat) (cursor next : Text) : Prop :=
  next = [] ∧ (left cursor).length ≤ size ∨
    next ≠ [] ∧ ¬Virtual next ∧ size < (left cursor).length ∧ left next = (left cursor).drop size

/-- The backing list hands out what its cursors leave, in pages of any size. -/
def Backs : Prop :=
  ∀ (size : Int) (cursor : Text), 0 < size → size ≤ maxPageLimit → ∃ next,
    (list { limit := size, cursor }).exec p = (.ok ⟨(left cursor).take size.toNat, next⟩, p) ∧
      Hands left size.toNat cursor next

/-- The backing list hands out pages by its cursors: each is a first part of the rows
that its cursor leaves.  The count is what makes the list end. -/
def Paged (remains : Text → List α → Nat → Prop) : Prop :=
  ∀ {size : Int} {cursor : Text} {due : List α} {count : Nat}, 0 < size → size ≤ maxPageLimit → remains cursor due count →
    ∃ items next, (list { limit := size, cursor }).exec p = (.ok ⟨items, next⟩, p) ∧
      (next = [] ∧ due = items ∨ next ≠ [] ∧ ¬Virtual next ∧
        ∃ rest fewer, due = items ++ rest ∧ fewer < count ∧ remains next rest fewer)

def OverlayPage (limit : Int) (cursor : Text) (items : List α) (next : Text) : Prop :=
  ((overlayList virt { limit, cursor } id list).exec p).1 = .ok ⟨items, next⟩

def plainRows (rows : List α) : List α :=
  rows.filter fun row => !isPlatformID (id row)

/-- A position among the virtual rows, as a cursor. -/
inductive Position : Text → Nat → Prop
  | first : Position [] 0
  | among {n : Nat} (inside : n < virt.length) : Position (platformCursorPrefix ++ itoa n) n
  | done : Position platformCursorDone virt.length

/-- The pages of a reader that asks for the n-th one with its own limit. -/
def LimitedPage (limits : Nat → Int) (place : Option (Nat × Text)) (items : List α) (next : Option (Nat × Text)) :
    Prop :=
  ∃ n cursor following, place = some (n, cursor) ∧ OverlayPage virt id list p (limits n) cursor items following ∧
    next = if following = [] then none else some (n + 1, following)

variable (remains : Text → List α → Nat → Prop)

/-- What a cursor leaves to list, and a bound on the pages for it. -/
inductive Leaves : Text → List α → Nat → Prop
  | virtual {cursor : Text} {n : Nat} {due : List α} {count : Nat} (position : Position virt cursor n)
      (listed : remains [] due count) : Leaves cursor (virt.drop n ++ plainRows id due) (virt.length - n + count)
  | behind {cursor : Text} {due : List α} {count : Nat} (named : cursor ≠ []) (plain : ¬Virtual cursor)
      (listed : remains cursor due count) : Leaves cursor (plainRows id due) count

/-- A page ends the listing, or its cursor leaves the rest. -/
def Goes (due : List α) (count : Nat) (items : List α) (next : Text) : Prop :=
  next = [] ∧ due = items ∨
    next ≠ [] ∧ ∃ rest fewer, due = items ++ rest ∧ fewer < count ∧ Leaves virt id remains next rest fewer

variable {virt id list p left remains}

theorem plainRows_append : plainRows id (front ++ back) = plainRows id front ++ plainRows id back :=
  filter_append ..

theorem Backs.paged (backs : Backs list p left) :
    Paged list p fun cursor due count => due = left cursor ∧ count = due.length := by
  rintro size cursor _ _ positive bounded ⟨rfl, rfl⟩
  obtain ⟨next, listed, hands⟩ := backs size cursor positive bounded
  refine ⟨_, next, listed, ?_⟩
  obtain ⟨last, short⟩ | ⟨named, plain, long, rest⟩ := hands
  · exact .inl ⟨last, by rw [take_of_length_le short]⟩
  · refine .inr ⟨named, plain, _, _, ?_, ?_, rfl, rfl⟩
    · rw [rest, take_append_drop]
    · rw [rest, length_drop]
      omega

theorem backing_step {count bound : Nat} (out : List α) (paged : Paged list p remains) (positive : 0 < size)
    (bounded : size ≤ maxPageLimit) (starts : remains cursor due count) (more : count ≤ bound) :
    ∃ items next, (backing { limit := size, cursor } id list).exec p = (.ok ⟨items, next⟩, p) ∧
      Goes virt id remains (out ++ plainRows id due) bound (out ++ items) next := by
  obtain ⟨items, next, listed, goes⟩ := paged positive bounded starts
  refine ⟨plainRows id items, next, ?_, ?_⟩
  · rw [backing, Prog.exec_bind, listed]
    rfl
  obtain ⟨last, rfl⟩ | ⟨named, plain, rest, fewer, rfl, less, later⟩ := goes
  · exact .inl ⟨last, rfl⟩
  · refine .inr ⟨named, _, fewer, ?_, by omega, .behind named plain later⟩
    rw [plainRows_append, append_assoc]

theorem overlayFrom_step {count : Nat} (paged : Paged list p remains) (starts : remains [] due count) (positive : 0 < page.limit)
    (bounded : page.limit ≤ maxPageLimit) (among : n ≤ virt.length) :
    ∃ items next, ((overlayFrom virt page id list n).exec p).1 = .ok ⟨items, next⟩ ∧
      Goes virt id remains (virt.drop n ++ plainRows id due) (virt.length - n + count) items next := by
  rw [overlayFrom]
  by_cases full : ((virt.drop n).take page.limit.toNat).length = page.limit.toNat
  · rw [if_pos full, full]
    refine ⟨_, _, rfl, .inr ?_⟩
    rw [length_take, length_drop] at full
    have split : virt.drop n = (virt.drop n).take page.limit.toNat ++ virt.drop (n + page.limit.toNat) := by
      rw [← drop_drop, take_append_drop]
    split
    next more =>
      refine ⟨(virtual_append).ne_nil, _, _, ?_, ?_, .virtual (.among more) starts⟩
      · rw [← append_assoc, ← split]
      · omega
    · have whole : n + page.limit.toNat = virt.length := by omega
      rw [whole] at split
      refine ⟨(virtual_append).ne_nil, _, _, ?_, ?_, .virtual .done starts⟩
      · rw [← append_assoc, ← split]
      · omega
  · have out : (virt.drop n).take page.limit.toNat = virt.drop n := by
      rw [length_take] at full
      exact take_of_length_le (by omega)
    rw [out] at full ⊢
    have short : (virt.drop n).length < page.limit.toNat := by
      rw [← out, length_take] at full
      omega
    obtain ⟨items, next, listed, goes⟩ := backing_step (virt.drop n) paged
      (by omega : 0 < page.limit - (virt.drop n).length) (by omega) starts (Nat.le_add_left _ _)
    rw [if_neg full, Prog.exec_bind, listed]
    exact ⟨_, next, rfl, goes⟩

theorem overlayList_among (virt : List α) (id : α → Text) (list : Page → Op (Except Err (Result α))) (page : Page)
    {n : Nat} (small : n < 2 ^ 63) :
    overlayList virt { page with cursor := platformCursorPrefix ++ itoa n } id list =
      overlayFrom virt ({ page with cursor := platformCursorPrefix ++ itoa n } : Page).normalize id list n := by
  have virtual : platformCursorPrefix.isPrefixOf (platformCursorPrefix ++ itoa n) = true := virtual_append
  have named : platformCursorPrefix ++ itoa n ≠ [] := (virtual_append).ne_nil
  have parsed : parseInt (itoa n) = some (n : Int) := parseInt_itoa (by omega) (by omega)
  have natural : ¬(n : Int) < 0 := by omega
  simp [overlayList, Page.normalize, named, position_ne_done, parsed]

theorem overlayList_behind (virt : List α) (id : α → Text) (list : Page → Op (Except Err (Result α))) (page : Page)
    (named : page.cursor ≠ []) (plain : ¬Virtual page.cursor) :
    overlayList virt page id list = backing page.normalize id list := by
  have other : page.cursor ≠ platformCursorDone := fun done => plain (done ▸ virtual_append)
  have unread : ¬platformCursorPrefix.isPrefixOf page.cursor = true := plain
  simp [overlayList, Page.normalize, named, other, unread]

theorem overlayList_step (limit : Int) (paged : Paged list p remains) (small : virt.length < 2 ^ 63) {count : Nat}
    (leaves : Leaves virt id remains cursor due count) :
    ∃ items next, OverlayPage virt id list p limit cursor items next ∧ Goes virt id remains due count items next := by
  obtain ⟨positive, bounded⟩ := normalize_range { limit, cursor }
  cases leaves with
  | virtual position starts =>
      cases position with
      | first => exact overlayFrom_step paged starts positive bounded (Nat.zero_le _)
      | among inside =>
          have read := overlayList_among virt id list { limit } (Nat.lt_trans inside small)
          simp only [OverlayPage, read]
          exact overlayFrom_step paged starts positive bounded inside.le
      | done =>
          obtain ⟨items, next, listed, goes⟩ := backing_step [] paged positive bounded starts (Nat.le_add_left _ _)
          have read : overlayList virt { limit, cursor := platformCursorDone } id list =
            backing { limit := ({ limit, cursor := platformCursorDone } : Page).normalize.limit } id list := rfl
          simp only [OverlayPage, read]
          rw [drop_length]
          exact ⟨items, next, congrArg Prod.fst listed, goes⟩
  | behind named plain starts =>
      obtain ⟨items, next, listed, goes⟩ := backing_step [] paged positive bounded starts (Nat.le_refl _)
      have read := overlayList_behind virt id list { limit, cursor } named plain
      simp only [OverlayPage, read]
      exact ⟨items, next, congrArg Prod.fst listed, goes⟩

theorem overlayList_drains (id : α → Text) (backs : Backs list p left) (small : virt.length < 2 ^ 63) (limit : Int) :
    Drains (OverlayPage virt id list p limit) [] [] (virt ++ plainRows id (left [])) :=
  Drains.of_step (Leaves virt id _) (overlayList_step limit backs.paged small) (.virtual .first ⟨rfl, rfl⟩)

theorem overlayList_refuses (virt : List α) (id : α → Text) (list : Page → Op (Except Err (Result α))) (limit : Int)
    (other : platformCursorPrefix ++ suffix ≠ platformCursorDone) (bad : ∀ n, parseInt suffix = some n → n < 0) :
    overlayList virt { limit, cursor := platformCursorPrefix ++ suffix } id list =
      return .error (.wrap .invalid (text "cursor " ++ Strings.quote (platformCursorPrefix ++ suffix))) := by
  have virtual : platformCursorPrefix.isPrefixOf (platformCursorPrefix ++ suffix) = true := virtual_append
  have named : platformCursorPrefix ++ suffix ≠ [] := (virtual_append).ne_nil
  cases parsed : parseInt suffix with
  | none => simp [overlayList, Page.normalize, named, other, parsed]
  | some n => simp [overlayList, Page.normalize, named, other, parsed, bad n parsed]

/-- Whatever limits a reader asks for, the pages end and are the virtual rows and then
those of the backing list; a cursor of the platform that is no position is refused. -/
theorem overlayList_lists_once (virt : List α) (id : α → Text) (list : Page → Op (Except Err (Result α)))
    (p : Provider) (remains : Text → List α → Nat → Prop) (due : List α) (count : Nat) (small : virt.length < 2 ^ 63)
    (paged : Paged list p remains) (starts : remains [] due count) :
    (∀ limits, Drains (LimitedPage virt id list p limits) none (some (0, [])) (virt ++ plainRows id due)) ∧
      ∀ limit suffix, platformCursorPrefix ++ suffix ≠ platformCursorDone → (∀ n, parseInt suffix = some n → n < 0) →
          ((overlayList virt { limit, cursor := platformCursorPrefix ++ suffix } id list).exec p).1 =
            .error (.wrap .invalid (text "cursor " ++ Strings.quote (platformCursorPrefix ++ suffix))) := by
  constructor
  · intro limits
    refine Drains.of_step (fun place due count => ∃ n cursor, place = some (n, cursor) ∧ Leaves virt id remains cursor due count)
      ?_ ⟨0, [], rfl, .virtual .first starts⟩
    rintro _ due count ⟨n, cursor, rfl, leaves⟩
    obtain ⟨items, next, listed, ⟨rfl, rfl⟩ | ⟨named, rest, fewer, split, less, later⟩⟩ :=
      overlayList_step (limits n) paged small leaves
    · exact ⟨due, none, ⟨n, cursor, [], rfl, listed, rfl⟩, .inl ⟨rfl, rfl⟩⟩
    · refine ⟨items, some (n + 1, next), ⟨n, cursor, next, rfl, listed, (if_neg named).symm⟩,
        .inr ⟨nofun, rest, fewer, split, less, ?_⟩⟩
      exact ⟨n + 1, next, rfl, later⟩
  · intro limit suffix other bad
    rw [overlayList_refuses virt id list limit other bad]
    rfl

theorem row_after_virtual : Drains (LimitedPage [text "v"] (fun row => row) (fun _ => return .ok ⟨[text "a"], []⟩)
    { tenants := fun _ => {} } fun _ => 1) none (some (0, [])) [text "v", text "a"] :=
  (overlayList_lists_once [text "v"] _ _ _ (fun _ due count => due = [text "a"] ∧ count = 0) _ _ (by decide)
    (fun _ _ listed => ⟨_, [], rfl, .inl ⟨rfl, listed.1⟩⟩) ⟨rfl, rfl⟩).1 _

theorem backs_table
    (listing : ∀ page, (list page).exec p = (.ok { paginate rows page (fun _ => true) with
      items := (paginate rows page fun _ => true).items.map mark }, p))
    (plain : ∀ (key : Text) (row : α), rows[key]? = some row → key ≠ [] ∧ ¬Virtual key) :
    Backs list p fun cursor => (rows.after (fun _ => true) cursor).map fun entry => mark entry.2 := by
  intro size cursor positive bounded
  have page := paginate_page rows { limit := size, cursor } fun _ => true
  rw [normalize_of_range { limit := size, cursor } positive bounded] at page
  refine ⟨(paginate rows { limit := size, cursor } fun _ => true).nextCursor, ?_, ?_⟩
  · rw [listing, page.1, map_map, ← map_take]
    rfl
  · rw [Hands, length_map]
    obtain ⟨short, last⟩ | ⟨long, ⟨row, listed⟩, rest⟩ := Table.pageAfter_step (by dsimp only; omega) page
    · exact .inl ⟨last, short⟩
    · obtain ⟨named, unread⟩ := plain _ row (Table.mem_toList.mp (mem_of_mem_filter listed))
      exact .inr ⟨named, unread, long, by rw [rest, map_drop]⟩

end

end Sendplane.Overlay
