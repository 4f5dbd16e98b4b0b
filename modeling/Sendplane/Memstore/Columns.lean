import Sendplane.Data.System
import Sendplane.Memstore.Bounce
import Sendplane.Memstore.Probe

namespace Sendplane.Memstore

open Data Store TenantStore Table System Option

def updateColumn {α : Type} (what : Text) (write : α → α) (rows : Table Text α) (id : Text) :
    Except Err Unit × Table Text α :=
  match rows[id]? with
  | none => (.error (.wrap .notFound (what ++ id)), rows)
  | some _ => (.ok (), rows.modify id write)

/-- A column that background loops write without a version check. -/
structure Column (α β : Type) where
  info : Meta α
  what : Text
  get : α → β
  rounded : β → β
  write : Time → β → α → α
  /-- The row without the column and what its writer stamps. -/
  rest : α → α
  rounded_rounded : ∀ value, rounded (rounded value) = rounded value
  get_write : ∀ now value row, get (write now value row) = rounded value
  rest_write : ∀ now value row, rest (write now value row) = rest row
  get_updatedRow : ∀ tenant now cur v, get (info.truncateRow (updatedRow info tenant now cur v)) = rounded (get v)

def probeMailboxMeta : Meta ProbeMailbox where
  id := ⟨ProbeMailbox.id, fun v id => { v with id }⟩
  tenant := ⟨ProbeMailbox.tenantID, fun v tenantID => { v with tenantID }⟩
  version := some ⟨ProbeMailbox.version, fun v version => { v with version }⟩
  created := ⟨ProbeMailbox.createdAt, fun v createdAt => { v with createdAt }⟩
  updated := some ⟨ProbeMailbox.updatedAt, fun v updatedAt => { v with updatedAt }⟩
  truncateRow v := { v with
    createdAt := truncateTime v.createdAt
    updatedAt := truncateTime v.updatedAt
    health := TenantStore.truncateHealth v.health }

def bounceMailboxMeta : Meta BounceMailbox where
  id := ⟨BounceMailbox.id, fun v id => { v with id }⟩
  tenant := ⟨BounceMailbox.tenantID, fun v tenantID => { v with tenantID }⟩
  version := some ⟨BounceMailbox.version, fun v version => { v with version }⟩
  created := ⟨BounceMailbox.createdAt, fun v createdAt => { v with createdAt }⟩
  updated := some ⟨BounceMailbox.updatedAt, fun v updatedAt => { v with updatedAt }⟩
  truncateRow v := { v with
    createdAt := truncateTime v.createdAt
    updatedAt := truncateTime v.updatedAt
    health := TenantStore.truncateHealth v.health }

theorem truncateHealth_idem (h : MailboxHealth) : truncateHealth (truncateHealth h) = truncateHealth h := by
  simp [truncateHealth]

def probeMailboxHealth : Column ProbeMailbox MailboxHealth where
  info := probeMailboxMeta
  what := text "probe mailbox "
  get := ProbeMailbox.health
  rounded := TenantStore.truncateHealth
  write _ h m := { m with health := TenantStore.truncateHealth h }
  rest m := { m with health := {} }
  rounded_rounded := truncateHealth_idem
  get_write _ _ _ := rfl
  rest_write _ _ _ := rfl
  get_updatedRow _ _ _ _ := rfl

def bounceMailboxHealth : Column BounceMailbox MailboxHealth where
  info := bounceMailboxMeta
  what := text "bounce mailbox "
  get := BounceMailbox.health
  rounded := TenantStore.truncateHealth
  write _ h m := { m with health := TenantStore.truncateHealth h }
  rest m := { m with health := {} }
  rounded_rounded := truncateHealth_idem
  get_write _ _ _ := rfl
  rest_write _ _ _ := rfl
  get_updatedRow _ _ _ _ := rfl

def campaignStats : Column Campaign CampaignStats where
  info := campaignMeta
  what := text "campaign "
  get := Campaign.stats
  rounded stats := stats
  write now stats c := { c with stats, updatedAt := now }
  rest c := { c with stats := {}, updatedAt := 0 }
  rounded_rounded _ := rfl
  get_write _ _ _ := rfl
  rest_write _ _ _ := rfl
  get_updatedRow _ _ _ _ := rfl

namespace Column

variable {α β : Type} (col : Column α β)

def update (now : Time) (rows : Table Text α) (id : Text) (value : β) : Except Err Unit × Table Text α :=
  updateColumn col.what (col.write now value) rows id

end Column

theorem probeMailboxUpdateHealth_eq (s : TenantStore) (id : Text) :
    s.probeMailboxUpdateHealth id h = ((probeMailboxHealth.update s.now s.probeMailboxes id h).1,
        { s with probeMailboxes := (probeMailboxHealth.update s.now s.probeMailboxes id h).2 }) := by
  unfold probeMailboxUpdateHealth Column.update updateColumn
  cases s.probeMailboxes[id]? <;> rfl

structure Editing (α β : Type) where
  rows : Table Text α := ∅
  drafts : Table Text α := ∅
  /-- The value that was last written to the column of each row. -/
  written : Table Text β := ∅
  /-- The row that the last edit of each row has stored. -/
  edited : Table Text α := ∅

/-- An edit writes the whole row back if its version is still the same. -/
inductive EditStep (α β : Type) where
  | get (editor id : Text)
  | update (editor : Text) (now : Time) (change : α → α)
  | write (now : Time) (id : Text) (value : β)

section

variable {α β : Type} (col : Column α β) (tenant : Text)

def editing : System (Editing α β) (EditStep α β) where
  step
    | s, .get editor id =>
        match find s.rows id with
        | .error _ => some s
        | .ok row => some { s with drafts := s.drafts.insert editor row }
    | s, .update editor now change =>
        s.drafts[editor]?.map fun draft =>
          let v := change draft
          let drafts := s.drafts.erase editor
          match update col.info tenant now s.rows v with
          | (.error _, _) => { s with drafts }
          | (.ok v, rows) =>
              { s with rows, drafts, edited := s.edited.insert (col.info.id.get (change draft)) (col.info.truncateRow v) }
    | s, .write now id value =>
        match col.update now s.rows id value with
        | (.error _, _) => some s
        | (.ok _, rows) => some { s with rows, written := s.written.insert id (col.rounded value) }

/-- An edit of the configuration leaves the column as it was read. -/
structure Configures (change : α → α) : Prop where
  id : ∀ row, col.info.id.get (change row) = col.info.id.get row
  version : ∀ row, versionOf col.info (change row) = versionOf col.info row
  column : ∀ row, col.get (change row) = col.get row

/-- The write of the draft succeeds. -/
structure Accepts (s : Editing α β) (editor : Text) (draft cur : α) : Prop where
  read : s.drafts[editor]? = some draft
  stored : s.rows[col.info.id.get draft]? = some cur
  current : versionOf col.info cur = versionOf col.info draft

def Edits (_ : Editing α β) : EditStep α β → Prop
  | .update _ _ change => Configures col change
  | _ => True

/-- An update that is accepted finds the column as it was read. -/
def Unraced (s : Editing α β) : EditStep α β → Prop
  | .update editor _ change => Configures col change ∧
      ∀ draft cur, Accepts col s editor draft cur → col.get draft = col.get cur
  | _ => True

def edit (s : Editing α β) (editor : Text) (now : Time) (cur v : α) : Editing α β :=
  let row := col.info.truncateRow (updatedRow col.info tenant now cur v)
  { s with
    rows := s.rows.insert (col.info.id.get v) row
    drafts := s.drafts.erase editor
    edited := s.edited.insert (col.info.id.get v) row }

variable {col tenant} {s : Editing α β} {editor : Text} {now : Time}

theorem edit_rows (id : Text) : (edit col tenant s editor now cur v).rows[id]? = if col.info.id.get v = id then
      some (col.info.truncateRow (updatedRow col.info tenant now cur v)) else s.rows[id]? :=
  get_insert _ _ _ _

theorem edit_edited (id : Text) : (edit col tenant s editor now cur v).edited[id]? = if col.info.id.get v = id then
      some (col.info.truncateRow (updatedRow col.info tenant now cur v)) else s.edited[id]? :=
  get_insert _ _ _ _

theorem update_step (configures : Configures col change)
    (stepped : (editing col tenant).step s (.update editor now change) = some next) :
    next = { s with drafts := s.drafts.erase editor } ∨
      ∃ draft cur, Accepts col s editor draft cur ∧ next = edit col tenant s editor now cur (change draft) := by
  obtain ⟨draft, read, rfl⟩ := map_eq_some_iff.mp stepped
  rcases update_cases col.info tenant now s.rows (change draft) with ⟨failure, failed⟩ | ⟨cur, stored, current, done⟩
  · left
    dsimp only
    rw [failed]
  · right
    rw [configures.id] at stored
    rw [configures.version] at current
    refine ⟨draft, cur, ⟨read, stored, current⟩, ?_⟩
    dsimp only
    rw [done]
    rfl

variable {draft : α}

theorem step_of_accepts (configures : Configures col change) (accepted : Accepts col s editor draft cur) :
    (editing col tenant).step s (.update editor now change) =
      some (edit col tenant s editor now cur (change draft)) := by
  have stored : s.rows[col.info.id.get (change draft)]? = some cur := by
    rw [configures.id]
    exact accepted.stored
  have current : versionOf col.info cur = versionOf col.info (change draft) := by
    rw [configures.version]
    exact accepted.current
  have done : update col.info tenant now s.rows (change draft) =
      (.ok (updatedRow col.info tenant now cur (change draft)), s.rows.insert (col.info.id.get (change draft))
        (col.info.truncateRow (updatedRow col.info tenant now cur (change draft)))) := by
    simp [update, stored, current]
  simp only [editing, accepted.read, map_some, done]
  rfl

theorem write_step {id : Text} (stepped : (editing col tenant).step s (.write now id value) = some next) :
    next = s ∨ ∃ cur, s.rows[id]? = some cur ∧
      next = { s with rows := s.rows.modify id (col.write now value), written := s.written.insert id (col.rounded value) } := by
  simp only [editing, Column.update, updateColumn] at stepped
  cases stored : s.rows[id]? with
  | none =>
      rw [stored] at stepped
      exact .inl (some.inj stepped).symm
  | some cur =>
      rw [stored] at stepped
      exact .inr ⟨cur, rfl, (some.inj stepped).symm⟩

theorem get_step {id : Text} (stepped : (editing col tenant).step s (.get editor id) = some next) :
    next = s ∨ ∃ row, s.rows[id]? = some row ∧ next = { s with drafts := s.drafts.insert editor row } := by
  simp only [editing, find] at stepped
  cases stored : s.rows[id]? with
  | none =>
      rw [stored] at stepped
      exact .inl (some.inj stepped).symm
  | some row =>
      rw [stored] at stepped
      exact .inr ⟨row, rfl, (some.inj stepped).symm⟩

variable (col)

structure Rounded (s : Editing α β) : Prop where
  rows : ∀ (id : Text) row, s.rows[id]? = some row → col.rounded (col.get row) = col.get row
  drafts : ∀ (editor : Text) draft, s.drafts[editor]? = some draft → col.rounded (col.get draft) = col.get draft

/-- Every row has the configuration that its last edit has stored. -/
def RestKept (s : Editing α β) : Prop :=
  ∀ (id : Text) row, s.rows[id]? = some row → ∃ base, s.edited[id]? = some base ∧ col.rest row = col.rest base

/-- Every row has the value that was last written to its column. -/
def ColumnKept (s : Editing α β) : Prop :=
  ∀ (id : Text) row, s.rows[id]? = some row → s.written[id]? = some (col.get row)

variable {col}

theorem get_stored (configures : Configures col change) (now : Time)
    (rounded : col.rounded (col.get draft) = col.get draft) :
    col.get (col.info.truncateRow (updatedRow col.info tenant now cur (change draft))) = col.get draft := by
  rw [col.get_updatedRow, configures.column, rounded]

theorem rounded_step (rounded : Rounded col s) (edits : Edits col s label)
    (stepped : (editing col tenant).step s label = some next) : Rounded col next := by
  cases label with
  | get editor id =>
      rcases get_step stepped with rfl | ⟨row, stored, rfl⟩
      · exact rounded
      · refine ⟨rounded.rows, ?_⟩
        intro other draft read
        rw [get_insert] at read
        split at read
        · cases read
          exact rounded.rows id row stored
        · exact rounded.drafts other draft read
  | update editor now change =>
      have kept : ∀ (other : Text) draft, (s.drafts.erase editor)[other]? = some draft →
          col.rounded (col.get draft) = col.get draft := by
        intro other draft read
        rw [get_erase] at read
        split at read
        · cases read
        · exact rounded.drafts other draft read
      rcases update_step edits stepped with rfl | ⟨draft, cur, accepted, rfl⟩
      · exact ⟨rounded.rows, kept⟩
      · refine ⟨?_, kept⟩
        intro id row stored
        rw [edit_rows] at stored
        split at stored
        · cases stored
          have same := rounded.drafts editor draft accepted.read
          rw [get_stored edits now same]
          exact same
        · exact rounded.rows id row stored
  | write now id value =>
      rcases write_step stepped with rfl | ⟨cur, found, rfl⟩
      · exact rounded
      · refine ⟨?_, rounded.drafts⟩
        intro other row stored
        obtain ⟨old, before, rfl | ⟨_, rfl⟩⟩ := changes_modify.origin stored
        · exact rounded.rows other row before
        · rw [col.get_write, col.rounded_rounded]

theorem restKept_step (kept : RestKept col s) (edits : Edits col s label)
    (stepped : (editing col tenant).step s label = some next) : RestKept col next := by
  cases label with
  | get editor id =>
      rcases get_step stepped with rfl | ⟨row, _, rfl⟩
      · exact kept
      · exact kept
  | update editor now change =>
      rcases update_step edits stepped with rfl | ⟨draft, cur, _, rfl⟩
      · exact kept
      · intro id row stored
        rw [edit_rows] at stored
        rw [edit_edited]
        split at stored
        · rename_i same
          cases stored
          exact ⟨_, if_pos same, rfl⟩
        · rename_i differs
          rw [if_neg differs]
          exact kept id row stored
  | write now id value =>
      rcases write_step stepped with rfl | ⟨cur, _, rfl⟩
      · exact kept
      · intro other row stored
        obtain ⟨old, before, rfl | ⟨_, rfl⟩⟩ := changes_modify.origin stored
        · exact kept other row before
        · rw [col.rest_write]
          exact kept other old before

theorem unraced_edits (unraced : Unraced col s label) : Edits col s label := by
  cases label with
  | get | write => trivial
  | update editor now change => exact unraced.1

theorem columnKept_step (kept : ColumnKept col s) (rounded : Rounded col s) (unraced : Unraced col s label)
    (stepped : (editing col tenant).step s label = some next) : ColumnKept col next := by
  cases label with
  | get editor id =>
      rcases get_step stepped with rfl | ⟨row, _, rfl⟩
      · exact kept
      · exact kept
  | update editor now change =>
      obtain ⟨configures, same⟩ := unraced
      rcases update_step configures stepped with rfl | ⟨draft, cur, accepted, rfl⟩
      · exact kept
      · intro id row stored
        rw [edit_rows, configures.id] at stored
        split at stored
        · rename_i named
          cases stored
          rw [get_stored configures now (rounded.drafts editor draft accepted.read), same draft cur accepted]
          exact named ▸ kept _ cur accepted.stored
        · exact kept id row stored
  | write now id value =>
      rcases write_step stepped with rfl | ⟨cur, _, rfl⟩
      · exact kept
      · intro other row stored
        rw [get_modify] at stored
        rw [get_insert]
        split at stored
        · rename_i same
          obtain ⟨old, _, rfl⟩ := map_eq_some_iff.mp stored
          rw [if_pos same, col.get_write]
        · rename_i differs
          rw [if_neg differs]
          exact kept other row stored

variable (col) in
/-- Nothing is being edited, and the columns have the values last written. -/
structure Settled (s : Editing α β) : Prop where
  drafts : s.drafts = ∅
  edited : s.edited = s.rows
  rounded : ∀ (id : Text) row, s.rows[id]? = some row → col.rounded (col.get row) = col.get row
  written : ColumnKept col s

theorem Settled.allRounded (settled : Settled col s) : Rounded col s := by
  refine ⟨settled.rounded, ?_⟩
  intro editor draft read
  rw [settled.drafts] at read
  cases read

theorem restKept_of_reaches (settled : Settled col start)
    (reached : (editing col tenant).Reaches (Edits col) start s) : RestKept col s := by
  apply Reaches.invariant _ (fun _ _ _ kept edits stepped => restKept_step kept edits stepped) reached
  intro id row stored
  exact ⟨row, by rw [settled.edited, stored], rfl⟩

theorem columnKept_of_reaches (settled : Settled col start)
    (reached : (editing col tenant).Reaches (Unraced col) start s) : ColumnKept col s ∧ Rounded col s := by
  apply Reaches.invariant ⟨settled.written, settled.allRounded⟩ _ reached
  rintro before label after ⟨kept, rounded⟩ unraced stepped
  exact ⟨columnKept_step kept rounded unraced stepped, rounded_step rounded (unraced_edits unraced) stepped⟩

theorem update_keeps_iff (kept : ColumnKept col s) (rounded : Rounded col s) (configures : Configures col change)
    (accepted : Accepts col s editor draft cur)
    (stepped : (editing col tenant).step s (.update editor now change) = some next) :
    (∀ row, next.rows[col.info.id.get draft]? = some row →
        next.written[col.info.id.get draft]? = some (col.get row)) ↔ col.get draft = col.get cur := by
  rw [step_of_accepts configures accepted] at stepped
  cases stepped
  have row : (edit col tenant s editor now cur (change draft)).rows[col.info.id.get draft]? =
      some (col.info.truncateRow (updatedRow col.info tenant now cur (change draft))) := by
    rw [edit_rows, if_pos (configures.id draft)]
  have value : col.get (col.info.truncateRow (updatedRow col.info tenant now cur (change draft))) = col.get draft :=
    get_stored configures now (rounded.drafts editor draft accepted.read)
  have last : (edit col tenant s editor now cur (change draft)).written[col.info.id.get draft]? = some (col.get cur) :=
    kept _ cur accepted.stored
  rw [row, last]
  constructor
  · intro same
    have written := some.inj (same _ rfl)
    rw [value] at written
    exact written.symm
  · rintro same _ ⟨⟩
    rw [value, same]

end

inductive Aggregate where
  | probeMailbox | bounceMailbox | campaign
deriving DecidableEq

namespace Aggregate

abbrev Row : Aggregate → Type
  | probeMailbox => ProbeMailbox
  | bounceMailbox => BounceMailbox
  | campaign => Campaign

abbrev Value : Aggregate → Type
  | probeMailbox | bounceMailbox => MailboxHealth
  | campaign => CampaignStats

def column : (a : Aggregate) → Column a.Row a.Value
  | probeMailbox => probeMailboxHealth
  | bounceMailbox => bounceMailboxHealth
  | campaign => campaignStats

end Aggregate

/-- In every interleaving no write of health or statistics undoes an edit.  In
one whose accepted updates find the column as it was read every row has the value
last written to its column, and an accepted update keeps this exactly then. -/
theorem column_kept_iff_unraced (a : Aggregate) {tenant : Text} {start s : Editing a.Row a.Value}
    (settled : Settled a.column start) (reached : (editing a.column tenant).Reaches (Edits a.column) start s) :
    RestKept a.column s ∧ ((editing a.column tenant).Reaches (Unraced a.column) start s → ColumnKept a.column s ∧
      ∀ editor now change draft cur next, Configures a.column change → Accepts a.column s editor draft cur →
        (editing a.column tenant).step s (.update editor now change) = some next →
          ((∀ row, next.rows[a.column.info.id.get draft]? = some row →
              next.written[a.column.info.id.get draft]? = some (a.column.get row)) ↔
            a.column.get draft = a.column.get cur)) := by
  refine ⟨restKept_of_reaches settled reached, ?_⟩
  intro unraced
  obtain ⟨kept, rounded⟩ := columnKept_of_reaches settled unraced
  refine ⟨kept, ?_⟩
  intro editor now change draft cur next configures accepted stepped
  exact update_keeps_iff kept rounded configures accepted stepped

/-- An operator renames a mailbox while a check finds that it cannot be reached. -/
def mailbox : ProbeMailbox where
  id := text "m1"
  version := 1

def unreachable : MailboxHealth where
  status := .error
  stage := text "dial"

def mailboxStart : Editing ProbeMailbox MailboxHealth where
  rows := (∅ : Table Text ProbeMailbox).insert (text "m1") mailbox
  written := (∅ : Table Text MailboxHealth).insert (text "m1") {}
  edited := (∅ : Table Text ProbeMailbox).insert (text "m1") mailbox

def renameMailbox (m : ProbeMailbox) : ProbeMailbox :=
  { m with name := text "ops" }

theorem renameMailbox_configures : Configures probeMailboxHealth renameMailbox :=
  ⟨fun _ => rfl, fun _ => rfl, fun _ => rfl⟩

theorem mailboxStart_settled : Settled probeMailboxHealth mailboxStart := by
  refine ⟨rfl, rfl, ?_, ?_⟩
  · intro id row stored
    obtain ⟨_, rfl⟩ := eq_of_get_single stored
    decide
  · intro id row stored
    obtain ⟨rfl, rfl⟩ := eq_of_get_single stored
    exact get_insert_same _ _ _

def checkFails : EditStep ProbeMailbox MailboxHealth :=
  .write 1000000 (text "m1") unreachable

def readRow : EditStep ProbeMailbox MailboxHealth :=
  .get (text "op") (text "m1")

def storeName : EditStep ProbeMailbox MailboxHealth :=
  .update (text "op") 2000000 renameMailbox

theorem check_before_read_is_kept : ∃ s next,
    (editing probeMailboxHealth []).run mailboxStart [checkFails, readRow] = some s ∧
    (editing probeMailboxHealth []).step s storeName = some next ∧
      ∀ row, next.rows[text "m1"]? = some row → next.written[text "m1"]? = some row.health := by
  have tables : ((editing probeMailboxHealth []).run mailboxStart [checkFails, readRow]).map
      (fun s => (s.drafts[text "op"]?, s.rows[text "m1"]?)) =
        some (some { mailbox with health := unreachable }, some { mailbox with health := unreachable }) := by
    decide +kernel
  obtain ⟨s, ran, same⟩ := map_eq_some_iff.mp tables
  rw [Prod.mk.injEq] at same
  have accepted : Accepts probeMailboxHealth s (text "op") { mailbox with health := unreachable }
      { mailbox with health := unreachable } := ⟨same.1, same.2, rfl⟩
  have stepped : (editing probeMailboxHealth []).step s storeName = _ := step_of_accepts renameMailbox_configures accepted
  have edits : (editing probeMailboxHealth []).Reaches (Edits probeMailboxHealth) mailboxStart s := by
    refine reaches_of_run ?_ ran
    exact ⟨trivial, fun _ _ => ⟨trivial, fun _ _ => trivial⟩⟩
  have unraced : (editing probeMailboxHealth []).Reaches (Unraced probeMailboxHealth) mailboxStart s := by
    refine reaches_of_run ?_ ran
    exact ⟨trivial, fun _ _ => ⟨trivial, fun _ _ => trivial⟩⟩
  have kept := (column_kept_iff_unraced .probeMailbox mailboxStart_settled edits).2 unraced
  exact ⟨s, _, ran, stepped, (kept.2 _ _ _ _ _ _ renameMailbox_configures accepted stepped).mpr rfl⟩

/-- The check comes between the read and the update, whose version still matches:
the mailbox is back to the health of before. -/
theorem check_after_read_is_lost :
    ¬ ∀ (a : Aggregate) (tenant : Text) (start s : Editing a.Row a.Value), Settled a.column start →
        (editing a.column tenant).Reaches (Edits a.column) start s → ColumnKept a.column s := by
  intro kept
  have tables : ((editing probeMailboxHealth []).run mailboxStart [readRow, checkFails, storeName]).map
      (fun s => (s.rows[text "m1"]?.map ProbeMailbox.health, s.written[text "m1"]?)) =
        some (some {}, some unreachable) := by
    decide +kernel
  obtain ⟨s, ran, same⟩ := map_eq_some_iff.mp tables
  rw [Prod.mk.injEq, map_eq_some_iff] at same
  obtain ⟨⟨row, stored, health⟩, written⟩ := same
  have reached : (editing probeMailboxHealth []).Reaches (Edits probeMailboxHealth) mailboxStart s := by
    refine reaches_of_run ?_ ran
    exact ⟨trivial, fun _ _ => ⟨trivial, fun _ _ => ⟨renameMailbox_configures, fun _ _ => trivial⟩⟩⟩
  have last := kept .probeMailbox [] mailboxStart s mailboxStart_settled reached (text "m1") row stored
  change s.written[text "m1"]? = some row.health at last
  rw [written, health] at last
  exact absurd (some.inj last) (by decide)

end Sendplane.Memstore
