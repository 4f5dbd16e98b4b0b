import Sendplane.Overlay.Calls
import Sendplane.Overlay.Isolation

namespace Sendplane.Overlay

open Data Store Memstore Resource

namespace Resource

variable (resource : Resource)

theorem config_createdRow (tenant : Text) (now : Time) (newID : Text) (v : resource.Row) :
    let info := resource.repo.table.info
    resource.config (info.truncateRow (createdRow info tenant now (identified info newID v))) = resource.config v := by
  cases resource <;>
    · simp only [identified, createdRow]
      split <;> split <;> rfl

theorem config_updatedRow (tenant : Text) (now : Time) (cur v : resource.Row) :
    let info := resource.repo.table.info
    resource.config (info.truncateRow (updatedRow info tenant now cur v)) = resource.config v := by
  cases resource <;> rfl

theorem id_createdRow (tenant : Text) (now : Time) (v : resource.Row) :
    let info := resource.repo.table.info
    info.id.get (createdRow info tenant now v) = info.id.get v := by
  cases resource <;>
    · simp only [createdRow]
      split <;> rfl

theorem rows_set_ne (distinct : other ≠ resource) (rows : Table Text resource.Row) :
    other.rows (resource.repo.table.rows.set rows s) = other.rows s := by
  cases resource <;> cases other <;> first | rfl | exact absurd rfl distinct

end Resource

/-- What may be stored for the tenant under the ID. -/
def Allowed (resource : Resource) (tenantID id : Text) (row : resource.Row) : Prop :=
  isPlatformID id = true → tenantID = systemTenantID ∧ resource.config row = resource.empty

/-- Rows under platform IDs are the system tenant's and hold no configuration. -/
def Shadowed (tenantID : Text) (s : TenantStore) : Prop :=
  ∀ (resource : Resource) (id : Text) (row : resource.Row),
    (resource.rows s)[id]? = some row → Allowed resource tenantID id row

variable {resource : Resource} {tenantID : Text}

theorem Shadowed.set (held : Shadowed tenantID s) {rows : Table Text resource.Row}
    (allowed : ∀ id row, rows[id]? = some row → Allowed resource tenantID id row) :
    Shadowed tenantID (resource.repo.table.rows.set rows s) := by
  intro other id row stored
  by_cases same : other = resource
  · subst same
    rw [Resource.rows, Lens.get_set] at stored
    exact allowed id row stored
  · rw [resource.rows_set_ne same] at stored
    exact held other id row stored

theorem Shadowed.insert (held : Shadowed tenantID s) {id : Text} (allowed : Allowed resource tenantID id row) :
    Shadowed tenantID (resource.repo.table.rows.set ((resource.rows s).insert id row) s) := by
  refine held.set fun other stored found => ?_
  rw [Table.get_insert] at found
  split at found
  next same =>
    cases found
    rwa [← same]
  · exact held resource other stored found

theorem create_shadowed {v : resource.Row}
    (allowed : Allowed resource tenantID (resource.repo.idOf (identified resource.repo.table.info newID v)) v)
    (held : Shadowed tenantID s) : Shadowed tenantID (resource.repo.table.create newID v s).2 := by
  rcases resource.repo.table.create_cases newID v s with ⟨failure, failed⟩ | ⟨row, stamped, _, created⟩
  · rw [failed]
    exact held
  · rw [created]
    refine held.insert fun platform => ?_
    rw [stamped, resource.id_createdRow] at platform
    rw [stamped, resource.config_createdRow]
    exact allowed platform

theorem update_shadowed {v : resource.Row} (allowed : Allowed resource tenantID (resource.repo.idOf v) v)
    (held : Shadowed tenantID s) : Shadowed tenantID (resource.repo.table.update v s).2 := by
  rcases resource.repo.table.update_cases v s with ⟨failure, failed⟩ | ⟨cur, _, _, updated⟩
  · rw [failed]
    exact held
  · rw [updated]
    refine held.insert fun platform => ?_
    rw [resource.config_updatedRow]
    exact allowed platform

theorem delete_shadowed (id : Text) (held : Shadowed tenantID s) :
    Shadowed tenantID (resource.repo.table.delete id s).2 := by
  rcases resource.repo.table.delete_cases id s with ⟨failure, failed⟩ | deleted
  · rw [failed]
    exact held
  · rw [deleted]
    refine held.set fun other row found => ?_
    rw [Table.get_erase] at found
    split at found
    · cases found
    · exact held resource other row found

theorem modify_shadowed (resource : Resource) {change : resource.Row → resource.Row}
    (kept : ∀ row, resource.config (change row) = resource.config row) (id : Text) (held : Shadowed tenantID s) :
    Shadowed tenantID (resource.repo.table.rows.set ((resource.rows s).modify id change) s) := by
  refine held.set fun other row found => ?_
  rw [Table.get_modify] at found
  split at found
  · obtain ⟨old, stored, rfl⟩ := Option.map_eq_some_iff.mp found
    intro platform
    rw [kept]
    exact held resource other old stored platform
  · exact held resource other row found

theorem probeHealth_shadowed (id : Text) (held : Shadowed tenantID s) :
    Shadowed tenantID (s.probeMailboxUpdateHealth id h).2 := by
  rw [probeMailboxUpdateHealth_eq, Column.update, updateColumn]
  cases s.probeMailboxes[id]? with
  | none => exact held
  | some m =>
      have kept (row : ProbeMailbox) : config .probeMailbox (probeMailboxHealth.write s.now h row) =
          config .probeMailbox row := rfl
      exact modify_shadowed .probeMailbox kept id held

theorem bounceHealth_shadowed (id : Text) (held : Shadowed tenantID s) :
    Shadowed tenantID (s.bounceMailboxUpdateHealth id h).2 := by
  rw [TenantStore.bounceMailboxUpdateHealth, Column.update, updateColumn]
  cases s.bounceMailboxes[id]? with
  | none => exact held
  | some m =>
      have kept (row : BounceMailbox) : config .bounceMailbox (bounceMailboxHealth.write s.now h row) =
          config .bounceMailbox row := rfl
      exact modify_shadowed .bounceMailbox kept id held

theorem Effect.shadowed (made : Effect effect) {p : Provider}
    (held : ∀ tenantID, Shadowed tenantID (p.tenants tenantID)) (tenantID : Text) :
    Shadowed tenantID ((effect p).tenants tenantID) := by
  -- Every effect but the first is a call on one tenant's store.
  have confined {β : Type} {caller : Text} {op : TenantStore → Except Err β × TenantStore}
      (kept : Shadowed caller (p.tenants caller) → Shadowed caller (op (p.tenants caller)).2) :
      Shadowed tenantID ((acting caller op p).tenants tenantID) := by
    rw [acting_tenants]
    split
    next same =>
      rw [same]
      exact kept (held caller)
    · exact held tenantID
  cases made with
  | quiet => exact held tenantID
  | create resource caller newID v own =>
      refine confined (create_shadowed fun platform => ?_)
      rw [own] at platform
      cases platform
  | update resource caller v own =>
      refine confined (update_shadowed fun platform => ?_)
      rw [own] at platform
      cases platform
  | delete resource caller id own => exact confined (delete_shadowed id)
  | createShadow resource row platform state => exact confined (create_shadowed fun _ => ⟨rfl, state⟩)
  | updateShadow resource row platform state => exact confined (update_shadowed fun _ => ⟨rfl, state⟩)
  | probeHealth caller id h => exact confined (probeHealth_shadowed id)
  | bounceHealth caller id h => exact confined (bounceHealth_shadowed id)
  | other caller made passing =>
      refine confined fun kept resource id row stored => ?_
      rw [rows_apply passing] at stored
      exact kept resource id row stored

variable {cat : Catalog}

theorem shadowed_of_reachable (idle : start.threads = [])
    (clean : ∀ tenantID, Shadowed tenantID (start.store.tenants tenantID))
    (reached : (overlayCalls cat).Reachable start pool) (tenantID : Text) :
    Shadowed tenantID (pool.store.tenants tenantID) := by
  let kept (before after : Provider) : Prop := (∀ tenantID, Shadowed tenantID (before.tenants tenantID)) →
    ∀ tenantID, Shadowed tenantID (after.tenants tenantID)
  have along : kept start.store pool.store :=
    kept_of_reachable (fun _ held => held) (fun _ _ _ first second held => second (first held))
      (fun _ made _ held => made.shadowed held) idle .refl reached
  exact along clean tenantID

theorem config_of_sameTransportConfig (same : Provider.sameTransportConfig v t = true) :
    config .transport t = config .transport v := by
  simp only [Provider.sameTransportConfig, Bool.and_eq_true, decide_eq_true_eq] at same
  simp [config, same]

theorem config_of_sameSenderConfig {v s : Sender} (same : sameSenderConfig v s = true) :
    config .sender s = config .sender v := by
  simp only [sameSenderConfig, Bool.and_eq_true, decide_eq_true_eq] at same
  simp [config, same]

theorem config_of_sameDomainConfig (same : sameDomainConfig v d = true) : config .domain d = config .domain v := by
  simp only [sameDomainConfig, Bool.and_eq_true, decide_eq_true_eq] at same
  simp [config, same]

theorem state_update_refused {α : Type} {repo : StateRepo α} {t : α} {Edited : α → Prop}
    (judged : ∀ {v}, repo.sameConfig v t = true → ¬ Edited v) (platform : isPlatformID (repo.idOf t) = true)
    (barred : tenantID ≠ systemTenantID ∨ ∀ v, repo.virtual cat (repo.idOf t) = some v → Edited v) :
    repo.update cat tenantID t = .done (.error (repo.readOnly (repo.idOf t))) := by
  rw [StateRepo.update, platform]
  simp only [Bool.not_true, Bool.false_eq_true, ↓reduceIte]
  cases found : repo.virtual cat (repo.idOf t) with
  | none => rfl
  | some v =>
      refine if_pos ?_
      rcases barred with foreign | edited
      · exact .inl foreign
      · exact .inr (by simpa using mt judged (not_not_intro (edited v found)))

/-- The tenant is not the system tenant, or the update changes a field of the
configuration. -/
def Barred (cat : Catalog) (tenantID : Text) (resource : Resource) (v : resource.Row) : Prop :=
  tenantID ≠ systemTenantID ∨ ∀ virtual, resource.repo.virtual cat (resource.repo.idOf v) = some virtual →
      resource.config v ≠ resource.config virtual

theorem update_of_barred (platform : isPlatformID (resource.repo.idOf v) = true)
    (barred : Barred cat tenantID resource v) :
    resource.update cat tenantID v = .done (.error (resource.repo.readOnly (resource.repo.idOf v))) := by
  cases resource with
  | transport => exact state_update_refused (not_not_intro <| config_of_sameTransportConfig ·) platform barred
  | sender => exact state_update_refused (not_not_intro <| config_of_sameSenderConfig ·) platform barred
  | domain => exact state_update_refused (not_not_intro <| config_of_sameDomainConfig ·) platform barred
  | probeMailbox | bounceMailbox => exact if_pos platform

/-- Whatever the tenants call, the rows under platform IDs are shadow rows of the
system tenant without configuration; and a call on a platform ID that is refused
has changed nothing. -/
theorem shadow_rows_hold_state_only {cat : Catalog} {start pool : Pool Unit Provider Err} (idle : start.threads = [])
    (clean : ∀ (tenantID : Text) (resource : Resource) (id : Text), isPlatformID id = true →
      (resource.rows (start.store.tenants tenantID))[id]? = none) (reached : (overlayCalls cat).Reachable start pool) :
    (∀ (tenantID : Text) (resource : Resource) (id : Text) (row : resource.Row),
      (resource.rows (pool.store.tenants tenantID))[id]? = some row → isPlatformID id = true →
        tenantID = systemTenantID ∧ resource.config row = resource.empty) ∧
    ∀ (tenantID : Text) (resource : Resource) (v : resource.Row), isPlatformID (resource.repo.idOf v) = true →
      (∀ newID, (resource.repo.create tenantID newID v).FailsClean) ∧ (resource.update cat tenantID v).FailsClean ∧
      (resource.repo.delete tenantID (resource.repo.idOf v)).FailsClean ∧ (Barred cat tenantID resource v →
        resource.update cat tenantID v = .done (.error (resource.repo.readOnly (resource.repo.idOf v)))) := by
  refine ⟨shadowed_of_reachable idle (fun tenantID resource id row stored platform => ?_) reached,
    fun tenantID resource v platform => ?_⟩
  · rw [clean tenantID resource id platform] at stored
    cases stored
  · exact ⟨fun newID => create_failsClean resource, update_failsClean resource,
      delete_failsClean resource _, update_of_barred platform⟩

def downRelay : Transport where
  id := relayID
  host := text "relay.example"
  shared := true
  status := .unhealthy
  statusReason := text "connection refused"

def idlePool : Pool Unit Provider Err :=
  { store := quietProvider, threads := [] }

def reportMoves : List (Move Call Err) :=
  [.spawn (.update .transport systemTenantID downRelay), .advance 0 none, .advance 0 none]

def reportedPool : Pool Unit Provider Err :=
  ((overlayCalls sharedCatalog).run idlePool reportMoves).getD idlePool

def relayShadow : Transport where
  id := relayID
  tenantID := systemTenantID
  shared := true
  status := .unhealthy
  statusReason := text "connection refused"
  version := 1

theorem reachable_reportedPool : (overlayCalls sharedCatalog).Reachable idlePool reportedPool := by
  have completed : (overlayCalls sharedCatalog).run idlePool reportMoves = some reportedPool := rfl
  exact System.reachable_of_run completed

theorem reported_relay_has_no_host :
    (Resource.rows .transport (reportedPool.store.tenants systemTenantID))[relayID]? = some relayShadow ∧
      Resource.config .transport relayShadow = Resource.empty .transport := by
  have clean (tenantID : Text) (resource : Resource) (id : Text) (_ : isPlatformID id = true) :
      (resource.rows (idlePool.store.tenants tenantID))[id]? = none := by
    cases resource <;> exact Table.get_empty id
  have stored : (rows .transport (reportedPool.store.tenants systemTenantID))[relayID]? = some relayShadow := by
    decide +kernel
  exact ⟨stored, ((shadow_rows_hold_state_only rfl clean reachable_reportedPool).1 systemTenantID .transport relayID
    relayShadow stored (by decide)).2⟩

end Sendplane.Overlay
