import Sendplane.Memstore.Columns
import Sendplane.Memstore.Provider

namespace Sendplane.Memstore

open Data Store

/-- A table of the tenant store with what the shared implementation needs of
it.  Only templates and layouts have a unique key. -/
structure TableRepo (α : Type) where
  info : Meta α
  key : α → Text := fun _ => []
  rows : Lens TenantStore (Table Text α)

namespace TableRepo

variable {α : Type} (repo : TableRepo α)

def create (newID : Text) (v : α) (s : TenantStore) : Except Err α × TenantStore :=
  let (reply, rows) := createUnique repo.info repo.key s.tenant s.now newID (repo.rows.get s) v
  (reply, repo.rows.set rows s)

def get (id : Text) (s : TenantStore) : Except Err α :=
  find (repo.rows.get s) id

def update (v : α) (s : TenantStore) : Except Err α × TenantStore :=
  let (reply, rows) := updateUnique repo.info repo.key s.tenant s.now (repo.rows.get s) v
  (reply, repo.rows.set rows s)

def delete (id : Text) (s : TenantStore) : Except Err Unit × TenantStore :=
  let (reply, rows) := Memstore.delete (repo.rows.get s) id
  (reply, repo.rows.set rows s)

def list (page : Page) (s : TenantStore) : Except Err (Result α) :=
  .ok (paginate (repo.rows.get s) page fun _ => true)

end TableRepo

def domainMeta : Meta SendingDomain where
  id := ⟨SendingDomain.id, fun v id => { v with id }⟩
  tenant := ⟨SendingDomain.tenantID, fun v tenantID => { v with tenantID }⟩
  version := some ⟨SendingDomain.version, fun v version => { v with version }⟩
  created := ⟨SendingDomain.createdAt, fun v createdAt => { v with createdAt }⟩
  updated := some ⟨SendingDomain.updatedAt, fun v updatedAt => { v with updatedAt }⟩
  truncateRow v := { v with
    createdAt := truncateTime v.createdAt
    updatedAt := truncateTime v.updatedAt
    healthCheckedAt := truncateTime v.healthCheckedAt }

/-- A stored layout has none of the fields that are computed on reading. -/
def layoutMeta : Meta Layout where
  id := ⟨Layout.id, fun v id => { v with id }⟩
  tenant := ⟨Layout.tenantID, fun v tenantID => { v with tenantID }⟩
  version := some ⟨Layout.version, fun v version => { v with version }⟩
  created := ⟨Layout.createdAt, fun v createdAt => { v with createdAt }⟩
  updated := some ⟨Layout.updatedAt, fun v updatedAt => { v with updatedAt }⟩
  truncateRow v := { v with
    createdAt := truncateTime v.createdAt
    updatedAt := truncateTime v.updatedAt
    overridden := false }

def templateMeta : Meta Template where
  id := ⟨Template.id, fun v id => { v with id }⟩
  tenant := ⟨Template.tenantID, fun v tenantID => { v with tenantID }⟩
  version := some ⟨Template.version, fun v version => { v with version }⟩
  created := ⟨Template.createdAt, fun v createdAt => { v with createdAt }⟩
  updated := some ⟨Template.updatedAt, fun v updatedAt => { v with updatedAt }⟩
  truncateRow v := { v with
    createdAt := truncateTime v.createdAt
    updatedAt := truncateTime v.updatedAt
    overridden := false
    sharedPublishedVersionID := [] }

/-- Versions are immutable. -/
def versionMeta : Meta MessageVersion where
  id := ⟨MessageVersion.id, fun v id => { v with id }⟩
  tenant := ⟨MessageVersion.tenantID, fun v tenantID => { v with tenantID }⟩
  version := none
  created := ⟨MessageVersion.createdAt, fun v createdAt => { v with createdAt }⟩
  updated := none
  truncateRow v := { v with createdAt := truncateTime v.createdAt }

namespace TenantStore

def transportRepo : TableRepo Transport where
  info := Provider.transportMeta
  rows := ⟨transports, fun transports s => { s with transports }, fun _ _ => rfl, fun _ _ _ => rfl, fun _ => rfl⟩

def senderRepo : TableRepo Sender where
  info := senderMeta
  rows := ⟨senders, fun senders s => { s with senders }, fun _ _ => rfl, fun _ _ _ => rfl, fun _ => rfl⟩

def domainRepo : TableRepo SendingDomain where
  info := domainMeta
  rows := ⟨domains, fun domains s => { s with domains }, fun _ _ => rfl, fun _ _ _ => rfl, fun _ => rfl⟩

def bounceMailboxRepo : TableRepo BounceMailbox where
  info := bounceMailboxMeta
  rows := ⟨bounceMailboxes, fun bounceMailboxes s => { s with bounceMailboxes },
    fun _ _ => rfl, fun _ _ _ => rfl, fun _ => rfl⟩

def probeMailboxRepo : TableRepo ProbeMailbox where
  info := probeMailboxMeta
  rows := ⟨probeMailboxes, fun probeMailboxes s => { s with probeMailboxes },
    fun _ _ => rfl, fun _ _ _ => rfl, fun _ => rfl⟩

def layoutRepo : TableRepo Layout where
  info := layoutMeta
  key := Layout.key
  rows := ⟨layouts, fun layouts s => { s with layouts }, fun _ _ => rfl, fun _ _ _ => rfl, fun _ => rfl⟩

def templateRepo : TableRepo Template where
  info := templateMeta
  key := Template.key
  rows := ⟨templates, fun templates s => { s with templates }, fun _ _ => rfl, fun _ _ _ => rfl, fun _ => rfl⟩

def probeRunRepo : TableRepo ProbeRun where
  info := probeRunMeta
  rows := ⟨probeRuns, fun probeRuns s => { s with probeRuns }, fun _ _ => rfl, fun _ _ _ => rfl, fun _ => rfl⟩

def versionRepo : TableRepo MessageVersion where
  info := versionMeta
  rows := ⟨versions, fun versions s => { s with versions }, fun _ _ => rfl, fun _ _ _ => rfl, fun _ => rfl⟩

def campaignRepo : TableRepo Campaign where
  info := campaignMeta
  rows := ⟨campaigns, fun campaigns s => { s with campaigns }, fun _ _ => rfl, fun _ _ _ => rfl, fun _ => rfl⟩

def bounceRepo : TableRepo BounceEvent where
  info := bounceMeta
  rows := ⟨bounces, fun bounces s => { s with bounces }, fun _ _ => rfl, fun _ _ _ => rfl, fun _ => rfl⟩

end TenantStore

variable {α : Type} {repo : TableRepo α}

/-- A create fails and changes nothing, or adds the row it answers. -/
theorem TableRepo.create_cases (newID : Text) (v : α) (s : TenantStore) :
    (∃ failure, repo.create newID v s = (.error failure, s)) ∨
      ∃ row, row = createdRow repo.info s.tenant s.now (identified repo.info newID v) ∧
        (repo.rows.get s)[repo.info.id.get (identified repo.info newID v)]? = none ∧ repo.create newID v s = (.ok row,
          repo.rows.set ((repo.rows.get s).insert (repo.info.id.get row) (repo.info.truncateRow row)) s) := by
  rw [create, createUnique]
  generalize (if repo.info.id.get v = [] then newID else repo.info.id.get v) = id
  by_cases taken : ((repo.rows.get s)[id]?.isNone && keyTaken repo.key (repo.rows.get s) v id) = true
  · rw [if_pos taken]
    exact .inl ⟨_, Prod.ext rfl (repo.rows.set_get s)⟩
  rw [if_neg taken, identified]
  cases stored : (repo.rows.get s)[repo.info.id.get
      (if repo.info.id.get v = [] then repo.info.id.set v newID else v)]? with
  | some row => exact .inl ⟨_, by simp [Memstore.create, stored, repo.rows.set_get]; rfl⟩
  | none => exact .inr ⟨_, rfl, rfl, by simp [Memstore.create, stored]⟩

theorem TableRepo.update_cases (v : α) (s : TenantStore) :
    (∃ failure, repo.update v s = (.error failure, s)) ∨
      ∃ cur, (repo.rows.get s)[repo.info.id.get v]? = some cur ∧ versionOf repo.info cur = versionOf repo.info v ∧
        repo.update v s = (.ok (updatedRow repo.info s.tenant s.now cur v),
          repo.rows.set ((repo.rows.get s).insert (repo.info.id.get v)
            (repo.info.truncateRow (updatedRow repo.info s.tenant s.now cur v))) s) := by
  rw [update, updateUnique]
  split_ifs
  · exact .inl ⟨_, Prod.ext rfl (repo.rows.set_get s)⟩
  rcases Memstore.update_cases repo.info s.tenant s.now (repo.rows.get s) v with
    ⟨failure, failed⟩ | ⟨cur, stored, current, updated⟩
  · exact .inl ⟨failure, by simp [failed, repo.rows.set_get]⟩
  · exact .inr ⟨cur, stored, current, by rw [updated]⟩

theorem TableRepo.delete_cases (id : Text) (s : TenantStore) :
    (∃ failure, repo.delete id s = (.error failure, s)) ∨
      repo.delete id s = (.ok (), repo.rows.set ((repo.rows.get s).erase id) s) := by
  rcases Memstore.delete_cases (repo.rows.get s) id with ⟨failure, failed⟩ | deleted
  · exact .inl ⟨failure, by simp [delete, failed, repo.rows.set_get]⟩
  · exact .inr (by rw [delete, deleted])

section

variable {newID id : Text} {v : α} {s : TenantStore}

theorem TableRepo.create_refused (refused : (repo.create newID v s).1.isOk = false) : (repo.create newID v s).2 = s := by
  rcases repo.create_cases newID v s with ⟨failure, failed⟩ | ⟨row, _, _, created⟩
  · rw [failed]
  · rw [created] at refused
    cases refused

theorem TableRepo.update_refused (refused : (repo.update v s).1.isOk = false) : (repo.update v s).2 = s := by
  rcases repo.update_cases v s with ⟨failure, failed⟩ | ⟨cur, _, _, updated⟩
  · rw [failed]
  · rw [updated] at refused
    cases refused

theorem TableRepo.delete_refused (refused : (repo.delete id s).1.isOk = false) : (repo.delete id s).2 = s := by
  rcases repo.delete_cases id s with ⟨failure, failed⟩ | deleted
  · rw [failed]
  · rw [deleted] at refused
    cases refused

end

section

variable (keyless : ∀ v, repo.key v = []) {v : α}
include keyless

theorem TableRepo.create_keyless : repo.create newID v s =
      let (reply, rows) := Memstore.create repo.info s.tenant s.now newID (repo.rows.get s) v
      (reply, repo.rows.set rows s) := by
  simp [create, createUnique, keyTaken, keyless]

theorem TableRepo.update_keyless : repo.update v s =
      let (reply, rows) := Memstore.update repo.info s.tenant s.now (repo.rows.get s) v
      (reply, repo.rows.set rows s) := by
  simp [update, updateUnique, keyTaken, keyless]

theorem TableRepo.create_of_absent (named : repo.info.id.get v ≠ [])
    (absent : (repo.rows.get s)[repo.info.id.get v]? = none) : repo.create newID v s =
      let row := createdRow repo.info s.tenant s.now v
      (.ok row, repo.rows.set ((repo.rows.get s).insert (repo.info.id.get row) (repo.info.truncateRow row)) s) := by
  simp [create_keyless keyless, Memstore.create, named, absent]

theorem TableRepo.update_of_current (stored : (repo.rows.get s)[repo.info.id.get v]? = some cur)
    (current : versionOf repo.info cur = versionOf repo.info v) :
    repo.update v s =
      let row := updatedRow repo.info s.tenant s.now cur v
      (.ok row, repo.rows.set ((repo.rows.get s).insert (repo.info.id.get v) (repo.info.truncateRow row)) s) := by
  simp [update_keyless keyless, Memstore.update, stored, current]

theorem TableRepo.update_of_stale (stored : (repo.rows.get s)[repo.info.id.get v]? = some cur)
    (stale : versionOf repo.info cur ≠ versionOf repo.info v) :
    ∃ e, e.kind = .conflict ∧ repo.update v s = (.error e, s) := by
  simp only [update_keyless keyless, Memstore.update, stored, ne_eq, stale, not_false_eq_true, ↓reduceIte,
    repo.rows.set_get]
  exact ⟨_, rfl, rfl⟩

end

end Sendplane.Memstore
