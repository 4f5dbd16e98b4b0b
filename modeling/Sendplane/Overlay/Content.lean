import Sendplane.Overlay.Listing

namespace Sendplane.Overlay

open Data Store Memstore Prog Table

/-- Rows of the system tenant that others read, unless they have one under the same key. -/
structure SharedRepo (α : Type) where
  kind : Text
  table : TableRepo α
  shared : α → Bool
  overridden : α → Bool
  /-- An own row, next to what the system tenant has under its key. -/
  annotated : Option α → α → α
  listed : Option α → α → α

namespace SharedRepo

variable {α : Type} (repo : SharedRepo α) (tenantID : Text)

def idOf (v : α) : Text :=
  repo.table.info.id.get v

def keyOf (v : α) : Text :=
  repo.table.key v

def sharedByID (id : Text) : Op (Except Err α) := do
  match ← lookAt systemTenantID (repo.table.get id) with
  | .error e => return .error e
  | .ok v => if repo.shared v then return .ok v else return .error (notFound repo.kind id)

def annotate (v : α) : Op (Except Err α) := do
  if repo.keyOf v = [] then return .ok (repo.annotated none v)
  else
    match ← lookAt systemTenantID (repo.table.getByKey (repo.keyOf v)) with
    | .ok orig => return .ok (repo.annotated (some orig) v)
    | .error e => if e.kind = .notFound then return .ok (repo.annotated none v) else return .error e

def get (id : Text) : Op (Except Err α) := do
  match ← lookAt tenantID (repo.table.get id) with
  | .ok v => repo.annotate v
  | .error e => if e.kind ≠ .notFound then return .error e else repo.sharedByID id

def getByKey (key : Text) : Op (Except Err α) := do
  match ← lookAt tenantID (repo.table.getByKey key) with
  | .ok v => repo.annotate v
  | .error e =>
      if e.kind ≠ .notFound ∨ key = [] then return .error e
      else
        match ← lookAt systemTenantID (repo.table.getByKey key) with
        | .error e => return .error e
        | .ok v =>
            if repo.shared v then return .ok v
            else return .error (.wrap .notFound (repo.kind ++ text " with key " ++ Strings.quote key))

/-- Walks the rows of the system tenant, through so many pages, and keeps those
that are shared. -/
def allShared : Nat → Text → List α → Op (Except Err (List α))
  | 0, _, out => return .ok out
  | pages + 1, cursor, out => do
      match ← lookAt systemTenantID (repo.table.list { limit := maxPageLimit, cursor }) with
      | .error e => return .error e
      | .ok res =>
          let out := out ++ res.items.filter repo.shared
          if res.nextCursor = [] then return .ok out else allShared pages res.nextCursor out

def unshadowed : List α → Op (Except Err (List α))
  | [] => return .ok []
  | v :: rest => do
      let keep : Op (Except Err (List α)) := do
        match ← unshadowed rest with
        | .error e => return .error e
        | .ok virt => return .ok (v :: virt)
      if repo.keyOf v = [] then keep
      else
        match ← lookAt tenantID (repo.table.getByKey (repo.keyOf v)) with
        | .ok _ => unshadowed rest
        | .error e => if e.kind ≠ .notFound then return .error e else keep

def byKey (shared : List α) (key : Text) : Option α :=
  if key = [] then none else shared.reverse.find? fun v => repo.keyOf v = key

def inListing (shared : List α) (v : α) : α :=
  repo.listed (repo.byKey shared (repo.keyOf v)) v

def listOwn (shared : List α) (page : Page) : Op (Except Err (Result α)) := do
  match ← lookAt tenantID (repo.table.list page) with
  | .error e => return .error e
  | .ok res => return .ok { res with items := res.items.map (repo.inListing shared) }

def list (pages : Nat) (page : Page) : Op (Except Err (Result α)) := do
  match ← repo.allShared pages [] [] with
  | .error e => return .error e
  | .ok shared =>
      match ← repo.unshadowed tenantID shared with
      | .error e => return .error e
      | .ok virt => overlayList virt page repo.idOf (repo.listOwn tenantID shared)

end SharedRepo

def sharedTemplates : SharedRepo Template where
  kind := text "template"
  table := TenantStore.templateRepo
  shared := Template.shared
  overridden := Template.overridden
  annotated orig v :=
    let v := { v with overridden := false, sharedPublishedVersionID := [] }
    match orig with
    | some orig =>
        if orig.shared then { v with overridden := true, sharedPublishedVersionID := orig.publishedVersionID } else v
    | none => v
  listed orig v := match orig with
    | some orig => { v with overridden := true, sharedPublishedVersionID := orig.publishedVersionID }
    | none => v

def sharedLayouts : SharedRepo Layout where
  kind := text "layout"
  table := TenantStore.layoutRepo
  shared := Layout.shared
  overridden := Layout.overridden
  annotated orig v := { v with overridden := (orig.map Layout.shared).getD false }
  listed orig v := { v with overridden := orig.isSome }

inductive Content where
  | template | layout
deriving DecidableEq

namespace Content

abbrev Row : Content → Type
  | template => Template
  | layout => Layout

def repo : (content : Content) → SharedRepo content.Row
  | template => sharedTemplates
  | layout => sharedLayouts

end Content

/-- The marks of an overridden row change nothing else. -/
structure SharedRepo.Marks {α : Type} (repo : SharedRepo α) : Prop where
  id : ∀ orig v, repo.idOf (repo.annotated orig v) = repo.idOf v
  overridden : ∀ orig v, repo.overridden (repo.annotated orig v) = orig.any repo.shared
  hidden : ∀ orig v, repo.shared orig = false → repo.annotated (some orig) v = repo.annotated none v
  shown : ∀ orig v, repo.shared orig = true → repo.listed (some orig) v = repo.annotated (some orig) v
  plain : ∀ v, repo.annotated none v = v → repo.listed none v = v

theorem sharedTemplates_marks : sharedTemplates.Marks where
  id orig v := by
    simp only [sharedTemplates]
    split
    · split <;> rfl
    · rfl
  overridden orig v := by
    cases orig with
    | none => rfl
    | some orig => cases share : orig.shared <;> simp [sharedTemplates, share]
  hidden orig v unshared := by
    have unshared : orig.shared = false := unshared
    simp [sharedTemplates, unshared]
  shown orig v share := by
    have share : orig.shared = true := share
    simp [sharedTemplates, share]
  plain _ _ := rfl

theorem sharedLayouts_marks : sharedLayouts.Marks where
  id _ _ := rfl
  overridden orig v := by cases orig <;> rfl
  hidden orig v unshared := by
    have unshared : orig.shared = false := unshared
    simp [sharedLayouts, unshared]
  shown orig v share := by
    have share : orig.shared = true := share
    simp [sharedLayouts, share]
  plain _ same := same

theorem Content.marks (content : Content) : content.repo.Marks := by
  cases content with
  | template => exact sharedTemplates_marks
  | layout => exact sharedLayouts_marks

namespace SharedRepo

variable {α : Type} (repo : SharedRepo α) (tenantID : Text) (p : Provider)

def rowsOf : Table Text α :=
  repo.table.rows.get (p.tenants tenantID)

def keyed (key : Text) : Option α :=
  rowOfKey repo.keyOf (repo.rowsOf tenantID p) key

/-- A tenant's own row as it should be shown. -/
def ownView (v : α) : α :=
  repo.annotated (repo.keyed systemTenantID p (repo.keyOf v)) v

def sharedRows : List α :=
  ((repo.rowsOf systemTenantID p).toList.map Prod.snd).filter repo.shared

def fallbacks : List α :=
  (repo.sharedRows p).filter fun v => (repo.keyed tenantID p (repo.keyOf v)).isNone

/-- The rows of a tenant as its writes leave them. -/
structure Tidy : Prop where
  filed : ∀ (id : Text) (v : α), (repo.rowsOf tenantID p)[id]? = some v → repo.idOf v = id ∧ id ≠ []
  unique : KeysUnique repo.keyOf (repo.rowsOf tenantID p)
  /-- The fields that are computed on reading are not stored. -/
  unmarked : ∀ (id : Text) (v : α), (repo.rowsOf tenantID p)[id]? = some v → repo.annotated none v = v

variable {repo tenantID p}

theorem Tidy.after_nil (tidy : repo.Tidy tenantID p) :
    (repo.rowsOf tenantID p).after (fun _ => true) [] = (repo.rowsOf tenantID p).toList := by
  rw [after, List.filter_eq_self]
  intro entry listed
  rw [compare_nil (tidy.filed entry.1 entry.2 (mem_toList.mp listed)).2]
  rfl

theorem getByKey_keyed : repo.table.getByKey key (p.tenants tenantID) = match repo.keyed tenantID p key with
    | some v => .ok v
    | none => .error (.wrap .notFound (text "key " ++ Strings.quote key)) :=
  rfl

theorem annotate_exec : (repo.annotate v).exec p = (.ok (repo.ownView p v), p) := by
  rw [annotate, ownView]
  by_cases empty : repo.keyOf v = []
  · rw [if_pos empty, keyed, rowOfKey, if_pos empty]
    rfl
  · rw [if_neg empty, lookAt, query_bind, exec_call, getByKey_keyed]
    cases repo.keyed systemTenantID p (repo.keyOf v) with
    | some | none => rfl

theorem get_exec (id : Text) : (repo.get tenantID id).exec p =
    (match (repo.rowsOf tenantID p)[id]?, (repo.rowsOf systemTenantID p)[id]? with
      | some v, _ => .ok (repo.ownView p v)
      | none, none => .error (.wrap .notFound id)
      | none, some v => if repo.shared v then .ok v else .error (notFound repo.kind id), p) := by
  have read (tenantID : Text) : repo.table.get id (p.tenants tenantID) = find (repo.rowsOf tenantID p) id := rfl
  rw [get, lookAt, query_bind, exec_call, read, find]
  cases (repo.rowsOf tenantID p)[id]? with
  | some v => exact annotate_exec
  | none =>
      change (repo.sharedByID id).exec p = _
      rw [sharedByID, lookAt, query_bind, exec_call, read, find]
      cases (repo.rowsOf systemTenantID p)[id]? with
      | none => rfl
      | some v => cases share : repo.shared v <;> simp [share]

theorem getByKey_exec : (repo.getByKey tenantID key).exec p =
    (match repo.keyed tenantID p key, repo.keyed systemTenantID p key with
      | some v, _ => .ok (repo.ownView p v)
      | none, none => .error (.wrap .notFound (text "key " ++ Strings.quote key))
      | none, some v => if repo.shared v then .ok v
          else .error (.wrap .notFound (repo.kind ++ text " with key " ++ Strings.quote key)), p) := by
  rw [getByKey, lookAt, query_bind, exec_call, getByKey_keyed]
  cases own : repo.keyed tenantID p key with
  | some v => exact annotate_exec
  | none =>
      by_cases empty : key = []
      · have none : repo.keyed systemTenantID p key = none := if_pos empty
        rw [none]
        simp [empty]
      · simp only [Err.wrap, ne_eq, not_true_eq_false, empty, or_self, ↓reduceIte]
        rw [lookAt, query_bind, exec_call, getByKey_keyed]
        cases repo.keyed systemTenantID p key with
        | none => rfl
        | some v => cases share : repo.shared v <;> simp [share]

theorem allShared_drains
    (drains : Drains (fun cursor items next => paginate (repo.rowsOf systemTenantID p)
      { limit := maxPageLimit, cursor } (fun _ => true) = ⟨items, next⟩) [] cursor rows) :
    ∃ enough, ∀ pages, enough ≤ pages → ∀ out,
      (repo.allShared pages cursor out).exec p = (.ok (out ++ rows.filter repo.shared), p) := by
  have read (cursor : Text) : repo.table.list { limit := maxPageLimit, cursor } (p.tenants systemTenantID) =
      .ok (paginate (repo.rowsOf systemTenantID p) { limit := maxPageLimit, cursor } fun _ => true) := rfl
  induction drains with
  | last listed =>
      refine ⟨1, fun pages enough out => ?_⟩
      obtain ⟨pages, rfl⟩ := Nat.exists_eq_add_of_le' enough
      rw [allShared, lookAt, query_bind, exec_call, read, listed]
      rfl
  | more listed open_ _ ih =>
      obtain ⟨enough, lists⟩ := ih
      refine ⟨enough + 1, fun pages more out => ?_⟩
      obtain ⟨pages, rfl⟩ := Nat.exists_eq_add_of_le' (Nat.le_of_add_left_le more)
      rw [allShared, lookAt, query_bind, exec_call, read, listed]
      simp [open_, lists pages (by omega)]

theorem unshadowed_exec : (repo.unshadowed tenantID rows).exec p =
    (.ok (rows.filter fun v => (repo.keyed tenantID p (repo.keyOf v)).isNone), p) := by
  induction rows with
  | nil => rfl
  | cons v rest ih =>
      rw [unshadowed]
      by_cases empty : repo.keyOf v = []
      · have none : repo.keyed tenantID p (repo.keyOf v) = none := if_pos empty
        rw [if_pos empty, exec_bind, ih, List.filter_cons_of_pos (by rw [none]; rfl)]
        rfl
      · rw [if_neg empty, lookAt, query_bind, exec_call, getByKey_keyed]
        cases own : repo.keyed tenantID p (repo.keyOf v) with
        | some shadow =>
            rw [List.filter_cons_of_neg (by simp [own])]
            exact ih
        | none =>
            rw [List.filter_cons_of_pos (by rw [own]; rfl)]
            simp only [Err.wrap, ne_eq, not_true_eq_false, ↓reduceIte]
            rw [exec_bind, ih]
            rfl

section

variable (marks : repo.Marks) (system : repo.Tidy systemTenantID p) (own : repo.Tidy tenantID p)

include system in
theorem allShared_exec : ∃ enough, ∀ pages, enough ≤ pages →
    (repo.allShared pages [] []).exec p = (.ok (repo.sharedRows p), p) := by
  have drains := paginate_drains (repo.rowsOf systemTenantID p) maxPageLimit (fun _ => true) []
  rw [system.after_nil] at drains
  obtain ⟨enough, lists⟩ := allShared_drains drains
  exact ⟨enough, fun pages more => lists pages more []⟩

theorem mem_sharedRows : v ∈ repo.sharedRows p ↔
    repo.shared v = true ∧ ∃ id : Text, (repo.rowsOf systemTenantID p)[id]? = some v := by
  rw [sharedRows, List.mem_filter, List.mem_map, and_comm]
  refine and_congr_right fun _ => ⟨?_, ?_⟩
  · rintro ⟨⟨id, row⟩, listed, rfl⟩
    exact ⟨id, mem_toList.mp listed⟩
  · rintro ⟨id, stored⟩
    exact ⟨(id, v), mem_toList.mpr stored, rfl⟩

include system in
theorem byKey_sharedRows :
    repo.byKey (repo.sharedRows p) key = (repo.keyed systemTenantID p key).filter repo.shared := by
  rw [Option.ext_iff]
  intro v
  rw [Option.filter_eq_some_iff, keyed, rowOfKey_iff system.unique, byKey]
  by_cases empty : key = []
  · simp [empty]
  rw [if_neg empty]
  constructor
  · intro found
    obtain ⟨share, stored⟩ := mem_sharedRows.mp (List.mem_reverse.mp (List.mem_of_find?_eq_some found))
    exact ⟨⟨empty, by simpa using List.find?_some found, stored⟩, share⟩
  · rintro ⟨⟨-, rfl, id, stored⟩, share⟩
    cases found : (repo.sharedRows p).reverse.find? fun other => repo.keyOf other = repo.keyOf v with
    | none =>
        have listed := List.mem_reverse.mpr (mem_sharedRows.mpr ⟨share, id, stored⟩)
        have absent := List.find?_eq_none.mp found v listed
        simp at absent
    | some other =>
        have same : repo.keyOf other = repo.keyOf v := by simpa using List.find?_some found
        obtain ⟨-, id', there⟩ := mem_sharedRows.mp (List.mem_reverse.mp (List.mem_of_find?_eq_some found))
        rw [system.unique _ _ _ _ there stored same (same ▸ empty), stored] at there
        exact there.symm

include marks system own in
theorem inListing_eq_ownView {id : Text} (stored : (repo.rowsOf tenantID p)[id]? = some v) :
    repo.inListing (repo.sharedRows p) v = repo.ownView p v := by
  have plain := own.unmarked id v stored
  rw [inListing, ownView, byKey_sharedRows system]
  cases repo.keyed systemTenantID p (repo.keyOf v) with
  | none => exact (marks.plain v plain).trans plain.symm
  | some orig =>
      cases share : repo.shared orig with
      | true => simpa [Option.filter, share] using marks.shown orig v share
      | false =>
          rw [marks.hidden orig v share, plain]
          simpa [Option.filter, share] using marks.plain v plain

/-- No ID of the tenant begins as those of the platform or as a cursor among the
virtual rows.  The IDs that sendplane mints do not. -/
def Minted (repo : SharedRepo α) (tenantID : Text) (p : Provider) : Prop :=
  ∀ (id : Text) (v : α), (repo.rowsOf tenantID p)[id]? = some v → isPlatformID id = false ∧ ¬Virtual id

variable (tenantID) in
include system in
theorem list_exec : ∃ enough, ∀ pages, enough ≤ pages → ∀ page, (repo.list tenantID pages page).exec p =
      (overlayList (repo.fallbacks tenantID p) page repo.idOf (repo.listOwn tenantID (repo.sharedRows p))).exec p := by
  obtain ⟨enough, lists⟩ := allShared_exec system
  refine ⟨enough, fun pages more page => ?_⟩
  rw [list, exec_bind, lists pages more]
  rw [exec_bind, unshadowed_exec]
  rfl

end

variable (repo tenantID p)

def visible : List α :=
  repo.fallbacks tenantID p ++ (repo.rowsOf tenantID p).toList.map fun entry => repo.ownView p entry.2

def Lists (limit : Int) (pages : Nat) (items : List α) : Prop :=
  Drains (fun cursor items next => ((repo.list tenantID pages { limit, cursor }).exec p).1 = .ok ⟨items, next⟩)
    [] [] items

/-- The reads show a tenant its own rows and the shared rows that it has none of
its own for, an own row always in the same way. -/
structure Resolves (limit : Int) : Prop where
  get_own : ∀ (id : Text) (v : α), (repo.rowsOf tenantID p)[id]? = some v →
    ((repo.get tenantID id).exec p).1 = .ok (repo.ownView p v)
  get_shared : ∀ (id : Text) (v : α), (repo.rowsOf tenantID p)[id]? = none →
    (((repo.get tenantID id).exec p).1 = .ok v ↔ (repo.rowsOf systemTenantID p)[id]? = some v ∧ repo.shared v = true)
  key_own : ∀ (id : Text) (v : α), (repo.rowsOf tenantID p)[id]? = some v → repo.keyOf v ≠ [] →
    ((repo.getByKey tenantID (repo.keyOf v)).exec p).1 = .ok (repo.ownView p v)
  key_shared : ∀ (key : Text) (v : α),
    (key = [] ∨ ∀ (id : Text) (own : α), (repo.rowsOf tenantID p)[id]? = some own → repo.keyOf own ≠ key) →
    (((repo.getByKey tenantID key).exec p).1 = .ok v ↔ key ≠ [] ∧ repo.keyOf v = key ∧ repo.shared v = true ∧
        ∃ id : Text, (repo.rowsOf systemTenantID p)[id]? = some v)
  listed : ∃ enough, ∀ pages, enough ≤ pages →
    ∃ items, repo.Lists tenantID p limit pages items ∧ items.Perm (repo.visible tenantID p)
  overridden : ∀ (id : Text) (v : α), (repo.rowsOf tenantID p)[id]? = some v →
    (repo.overridden (repo.ownView p v) = true ↔ repo.keyOf v ≠ [] ∧ ∃ (id : Text) (orig : α),
      (repo.rowsOf systemTenantID p)[id]? = some orig ∧ repo.keyOf orig = repo.keyOf v ∧ repo.shared orig = true)

variable {repo tenantID p}

section

variable (marks : repo.Marks) (system : repo.Tidy systemTenantID p) (own : repo.Tidy tenantID p)

theorem get_eq_ok_iff {id : Text} (absent : (repo.rowsOf tenantID p)[id]? = none) :
    ((repo.get tenantID id).exec p).1 = .ok v ↔
      (repo.rowsOf systemTenantID p)[id]? = some v ∧ repo.shared v = true := by
  rw [get_exec, absent]
  cases (repo.rowsOf systemTenantID p)[id]? with
  | none => simp
  | some w =>
      by_cases share : repo.shared w = true
      · simp only [share, ↓reduceIte, Except.ok.injEq, Option.some.injEq]
        exact ⟨fun same => ⟨same, same ▸ share⟩, And.left⟩
      · simp only [share, ↓reduceIte, reduceCtorEq, Option.some.injEq, false_iff, not_and]
        exact fun same => same ▸ share

include system own in
theorem getByKey_eq_ok_iff
    (absent : key = [] ∨ ∀ (id : Text) (own : α), (repo.rowsOf tenantID p)[id]? = some own → repo.keyOf own ≠ key) :
    ((repo.getByKey tenantID key).exec p).1 = .ok v ↔ key ≠ [] ∧ repo.keyOf v = key ∧ repo.shared v = true ∧
        ∃ id : Text, (repo.rowsOf systemTenantID p)[id]? = some v := by
  have none : repo.keyed tenantID p key = none := (rowOfKey_eq_none own.unique).mpr absent
  have found : repo.keyed systemTenantID p key = some v ↔ _ := rowOfKey_iff system.unique
  rw [getByKey_exec, none]
  cases there : repo.keyed systemTenantID p key with
  | none =>
      rw [there] at found
      simp only [reduceCtorEq, false_iff, not_and] at found ⊢
      exact fun named same _ => found named same
  | some w =>
      rw [there, Option.some.injEq] at found
      by_cases share : repo.shared w = true
      · simp only [share, ↓reduceIte, Except.ok.injEq]
        refine found.trans ⟨fun ⟨named, same, stored⟩ => ⟨named, same, ?_, stored⟩,
          fun ⟨named, same, _, stored⟩ => ⟨named, same, stored⟩⟩
        exact found.mpr ⟨named, same, stored⟩ ▸ share
      · simp only [share, ↓reduceIte, reduceCtorEq, false_iff]
        rintro ⟨named, same, shared, stored⟩
        exact share (found.mpr ⟨named, same, stored⟩ ▸ shared)

include own in
theorem getByKey_own {id : Text} (stored : (repo.rowsOf tenantID p)[id]? = some v) (named : repo.keyOf v ≠ []) :
    ((repo.getByKey tenantID (repo.keyOf v)).exec p).1 = .ok (repo.ownView p v) := by
  have found : repo.keyed tenantID p (repo.keyOf v) = some v := (rowOfKey_iff own.unique).mpr ⟨named, rfl, id, stored⟩
  rw [getByKey_exec, found]

include marks system in
theorem ownView_overridden : repo.overridden (repo.ownView p v) = true ↔ repo.keyOf v ≠ [] ∧ ∃ (id : Text) (orig : α),
      (repo.rowsOf systemTenantID p)[id]? = some orig ∧ repo.keyOf orig = repo.keyOf v ∧ repo.shared orig = true := by
  rw [ownView, marks.overridden, Option.any_eq_true]
  constructor
  · rintro ⟨orig, found, share⟩
    obtain ⟨named, same, id, stored⟩ := (rowOfKey_iff system.unique).mp found
    exact ⟨named, id, orig, stored, same, share⟩
  · rintro ⟨named, id, orig, stored, same, share⟩
    exact ⟨orig, (rowOfKey_iff system.unique).mpr ⟨named, same, id, stored⟩, share⟩

include marks system own in
theorem lists_visible (minted : repo.Minted tenantID p) (small : (repo.fallbacks tenantID p).length < 2 ^ 63) :
    ∃ enough, ∀ pages, enough ≤ pages →
      ∃ items, repo.Lists tenantID p limit pages items ∧ items.Perm (repo.visible tenantID p) := by
  let left (cursor : Text) : List α :=
    ((repo.rowsOf tenantID p).after (fun _ => true) cursor).map fun entry => repo.inListing (repo.sharedRows p) entry.2
  have backs : Backs (repo.listOwn tenantID (repo.sharedRows p)) p left :=
    backs_table (fun _ => rfl) fun id v stored => ⟨(own.filed id v stored).2, (minted id v stored).2⟩
  have drains := overlayList_drains repo.idOf backs small limit
  have rows : plainRows repo.idOf (left []) =
      (repo.rowsOf tenantID p).toList.map fun entry => repo.ownView p entry.2 := by
    simp only [left, own.after_nil]
    rw [plainRows, List.filter_eq_self.mpr]
    · exact List.map_congr_left fun entry listed =>
        inListing_eq_ownView marks system own (mem_toList.mp listed)
    · intro row listed
      obtain ⟨⟨id, v⟩, member, rfl⟩ := List.mem_map.mp listed
      have stored := mem_toList.mp member
      rw [inListing_eq_ownView marks system own stored, ownView, marks.id, (own.filed id v stored).1,
        (minted id v stored).1]
      rfl
  rw [rows] at drains
  obtain ⟨enough, lists⟩ := list_exec tenantID system
  refine ⟨enough, fun pages more => ⟨_, ?_, .refl _⟩⟩
  simp only [Lists, lists pages more]
  exact drains

end

end SharedRepo

/-- Every read resolves a tenant's content in the same way. -/
theorem content_resolves (content : Content) (tenantID : Text) (p : Provider) (limit : Int)
    (system : content.repo.Tidy systemTenantID p) (own : content.repo.Tidy tenantID p)
    (minted : content.repo.Minted tenantID p) (small : (content.repo.fallbacks tenantID p).length < 2 ^ 63) :
    content.repo.Resolves tenantID p limit where
  get_own id v stored := by rw [SharedRepo.get_exec, stored]
  get_shared _ _ absent := SharedRepo.get_eq_ok_iff absent
  key_own _ _ stored named := SharedRepo.getByKey_own own stored named
  key_shared _ _ absent := SharedRepo.getByKey_eq_ok_iff system own absent
  listed := SharedRepo.lists_visible content.marks system own minted small
  overridden _ v _ := SharedRepo.ownView_overridden content.marks system

section

variable {α : Type} {repo : SharedRepo α} {tenantID : Text} {p : Provider} {v : α}
  (rows : repo.rowsOf tenantID p = (∅ : Table Text α).insert (repo.idOf v) v)
include rows

theorem SharedRepo.stored_single {id : Text} (stored : (repo.rowsOf tenantID p)[id]? = some w) :
    repo.idOf v = id ∧ v = w := by
  rw [rows] at stored
  exact eq_of_get_single stored

theorem SharedRepo.tidy_single (named : repo.idOf v ≠ []) (unmarked : repo.annotated none v = v) : repo.Tidy tenantID p where
  filed id w stored := by
    obtain ⟨rfl, rfl⟩ := stored_single rows stored
    exact ⟨rfl, named⟩
  unique _ _ _ _ one two _ _ := (stored_single rows one).1.symm.trans (stored_single rows two).1
  unmarked _ _ stored := (stored_single rows stored).2 ▸ unmarked

end

def promotion : Template where
  id := text "s1"
  tenantID := systemTenantID
  key := text "promo"
  shared := true
  publishedVersionID := text "v1"

def ownPromotion (id : Text) : Template where
  id := id
  tenantID := text "acme"
  key := text "promo"

def overriding (id : Text) : Provider where
  tenants := fun t =>
    { tenant := t
      templates := if t = systemTenantID then (∅ : Table Text Template).insert (text "s1") promotion
        else (∅ : Table Text Template).insert id (ownPromotion id) }

theorem overriding_tidy_system (id : Text) : sharedTemplates.Tidy systemTenantID (overriding id) :=
  SharedRepo.tidy_single (v := promotion) rfl (by decide) rfl

theorem overriding_tidy_own {id : Text} (named : id ≠ []) : sharedTemplates.Tidy (text "acme") (overriding id) :=
  SharedRepo.tidy_single (v := ownPromotion id) rfl named rfl

theorem content_resolves_overriding : sharedTemplates.Resolves (text "acme") (overriding (text "t1")) 0 := by
  refine content_resolves .template (text "acme") (overriding (text "t1")) 0 (overriding_tidy_system _)
    (overriding_tidy_own (by decide)) (fun id v stored => ?_) (by decide +kernel)
  rw [← (SharedRepo.stored_single (v := ownPromotion (text "t1")) rfl stored).1]
  exact ⟨by decide, (by decide : ¬platformCursorPrefix.isPrefixOf (text "t1") = true)⟩

/-- A template whose ID has the prefix of the platform is read by its ID and by
its key, and never listed. -/
theorem reserved_template_unlisted :
    sharedTemplates.Tidy systemTenantID (overriding (text "sys:promo")) ∧
      sharedTemplates.Tidy (text "acme") (overriding (text "sys:promo")) ∧
      ((sharedTemplates.get (text "acme") (text "sys:promo")).exec (overriding (text "sys:promo"))).1.toOption =
        some { ownPromotion (text "sys:promo") with overridden := true, sharedPublishedVersionID := text "v1" } ∧
      ((sharedTemplates.list (text "acme") 1 {}).exec (overriding (text "sys:promo"))).1.toOption.map
        (fun res => (res.items, res.nextCursor)) = some ([], []) :=
  ⟨overriding_tidy_system _, overriding_tidy_own (by decide), by decide +kernel, by decide +kernel⟩

end Sendplane.Overlay
