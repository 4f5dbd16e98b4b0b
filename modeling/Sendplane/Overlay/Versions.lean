import Sendplane.Overlay.Shadows

namespace Sendplane.Overlay

open Data Store Memstore Prog Provider Table PlatformRepo Resource Option

/-- The resources that have shadow rows with a version. -/
inductive StateResource where
  | transport | sender | domain
deriving DecidableEq

namespace StateResource

abbrev resource : StateResource → Resource
  | transport => .transport
  | sender => .sender
  | domain => .domain

abbrev Row (kept : StateResource) : Type := kept.resource.Row

def repo : (kept : StateResource) → StateRepo kept.Row
  | transport => transports
  | sender => senders
  | domain => domains

variable (kept : StateResource)

theorem toPlatformRepo_repo : kept.repo.toPlatformRepo = kept.resource.repo := by
  cases kept <;> rfl

theorem keyless (v : kept.Row) : kept.repo.table.key v = [] := by
  cases kept <;> rfl

theorem versionOf_eq : versionOf kept.repo.table.info row = some (kept.repo.version row) := by
  cases kept <;> rfl

theorem idOf_shadow (version : Int) (t : kept.Row) : kept.repo.idOf (kept.repo.shadow version t) = kept.repo.idOf t := by
  cases kept <;> rfl

theorem version_shadow : kept.repo.version (kept.repo.shadow version t) = version := by
  cases kept <;> rfl

theorem idOf_createdRow : kept.repo.idOf (createdRow kept.repo.table.info tenant now v) = kept.repo.idOf v := by
  unfold createdRow
  cases kept <;>
    · dsimp only
      split <;> rfl

theorem version_createdRow (tenant : Text) (now : Time) (v : kept.Row) :
    kept.repo.version (kept.repo.table.info.truncateRow (createdRow kept.repo.table.info tenant now v)) = 1 := by
  cases kept <;> rfl

theorem version_updatedRow (tenant : Text) (now : Time) (cur v : kept.Row) :
    kept.repo.version (kept.repo.table.info.truncateRow (updatedRow kept.repo.table.info tenant now cur v)) =
      kept.repo.version cur + 1 := by
  cases kept <;> rfl

theorem version_overlaid : kept.repo.version (kept.repo.overlaid v row) = kept.repo.version row := by
  cases kept <;> rfl

theorem version_virtual {id : Text} (found : kept.repo.virtual cat id = some v) : kept.repo.version v = 0 := by
  have listed : v ∈ kept.repo.virtuals cat := List.mem_of_find?_eq_some found
  obtain ⟨transports, senders, domains⟩ := cat.unversioned
  cases kept with
  | transport => exact transports v listed
  | sender => exact senders v listed
  | domain => exact domains v listed

end StateResource

section

variable (kept : StateResource)

def shadowRows (p : Provider) : Table Text kept.Row :=
  kept.repo.table.rows.get (p.tenants systemTenantID)

def withShadow (id : Text) (row : kept.Row) (p : Provider) : Provider :=
  p.put systemTenantID (kept.repo.table.rows.set ((shadowRows kept p).insert id row) (p.tenants systemTenantID))

theorem get_withShadow (id : Text) : (shadowRows kept (withShadow kept id row p))[id]? = some row := by
  rw [shadowRows, withShadow, put_same, Lens.get_set, get_insert_same]

/-- The shadow row of the value is created, or replaced at the version of the
value. -/
def Swaps (t : kept.Row) (before after : Provider) : Prop :=
  ∃ new, after = withShadow kept (kept.repo.idOf t) new before ∧
    ((shadowRows kept before)[kept.repo.idOf t]? = none ∧ kept.repo.version new = 1 ∨
      ∃ row, (shadowRows kept before)[kept.repo.idOf t]? = some row ∧ kept.repo.version row = kept.repo.version t ∧
        kept.repo.version new = kept.repo.version row + 1)

end

section

variable {kept : StateResource} {t v : kept.Row}

theorem named_of_platform {id : Text} (platform : isPlatformID id = true) : id ≠ [] := by
  rintro rfl
  cases platform

theorem create_swaps (platform : isPlatformID (kept.repo.idOf t) = true)
    (succeeded : (kept.repo.table.create [] (kept.repo.shadow 0 t) (p.tenants systemTenantID)).1 = .ok row) :
    Swaps kept t p (acting systemTenantID (kept.repo.table.create [] (kept.repo.shadow 0 t)) p) := by
  have named : kept.repo.table.info.id.get (kept.repo.shadow 0 t) ≠ [] := by
    rw [← idOf, kept.idOf_shadow]
    exact named_of_platform platform
  rcases kept.repo.table.create_cases [] (kept.repo.shadow 0 t) (p.tenants systemTenantID) with
    ⟨failure, failed⟩ | ⟨new, stamped, free, created⟩
  · rw [failed] at succeeded
    cases succeeded
  · rw [identified, if_neg named] at stamped free
    have sameID : kept.repo.table.info.id.get new = kept.repo.idOf t := by
      rw [stamped, ← idOf, kept.idOf_createdRow, kept.idOf_shadow]
    refine ⟨kept.repo.table.info.truncateRow new, ?_, .inl ⟨?_, ?_⟩⟩
    · rw [acting, Lens.act, forTenant_get, created, sameID]
      rfl
    · rw [← kept.idOf_shadow 0 t]
      exact free
    · rw [stamped, kept.version_createdRow]

theorem update_swaps
    (succeeded : (kept.repo.table.update (kept.repo.shadow (kept.repo.version t) t) (p.tenants systemTenantID)).1 =
      .ok row) :
    Swaps kept t p (acting systemTenantID (kept.repo.table.update (kept.repo.shadow (kept.repo.version t) t)) p) := by
  rcases kept.repo.table.update_cases (kept.repo.shadow (kept.repo.version t) t) (p.tenants systemTenantID) with
    ⟨failure, failed⟩ | ⟨cur, stored, current, updated⟩
  · rw [failed] at succeeded
    cases succeeded
  · have sameID := kept.idOf_shadow (kept.repo.version t) t
    rw [idOf] at sameID
    rw [kept.versionOf_eq, kept.versionOf_eq, kept.version_shadow, some.injEq] at current
    refine ⟨kept.repo.table.info.truncateRow (updatedRow kept.repo.table.info (p.tenants systemTenantID).tenant
      (p.tenants systemTenantID).now cur (kept.repo.shadow (kept.repo.version t) t)), ?_, .inr ⟨cur, ?_, current, ?_⟩⟩
    · rw [acting, Lens.act, forTenant_get, updated, sameID]
      rfl
    · rw [← sameID]
      exact stored
    · exact kept.version_updatedRow _ _ cur _

theorem writeShadow_swaps (platform : isPlatformID (kept.repo.idOf t) = true) :
    (kept.repo.writeShadow t).Commits (Swaps kept t) :=
  writeShadow_commits (fun _ _ => create_swaps platform) fun _ _ => update_swaps

theorem shadowRows_eq : shadowRows kept p = kept.resource.rows (p.tenants systemTenantID) := by
  cases kept <;> rfl

variable {cat : Catalog} (platform : isPlatformID (kept.repo.idOf t) = true)
  (found : kept.repo.virtual cat (kept.repo.idOf t) = some v)

include platform found in
theorem update_eq_writeShadow (same : kept.repo.sameConfig v t = true) :
    kept.repo.update cat systemTenantID t = kept.repo.writeShadow t := by
  rw [StateRepo.update, platform, found]
  simp [same]

include platform found in
theorem get_exec :
    (kept.repo.get cat systemTenantID (kept.repo.idOf t)).exec p =
      (.ok (match (shadowRows kept p)[kept.repo.idOf t]? with
        | none => v
        | some row => kept.repo.overlaid v row), p) := by
  have sameID : kept.repo.idOf v = kept.repo.idOf t := by simpa using List.find?_some found
  rw [PlatformRepo.get, platform, found]
  simp only [Bool.not_true, Bool.false_eq_true, ↓reduceIte, bind_some, shown, getD_some,
    merged, lookAt, query_bind, exec_call, TableRepo.get, find, sameID]
  rw [← shadowRows]
  cases (shadowRows kept p)[kept.repo.idOf t]? with
  | none | some => rfl

theorem shadow_get : kept.repo.table.get (kept.repo.idOf t) (p.tenants systemTenantID) =
    match (shadowRows kept p)[kept.repo.idOf t]? with
    | none => .error (.wrap .notFound (kept.repo.idOf t))
    | some row => .ok row := by
  rw [TableRepo.get, find, ← shadowRows]
  cases (shadowRows kept p)[kept.repo.idOf t]? <;> rfl

include platform in
theorem writeShadow_succeeds (ready : (shadowRows kept p)[kept.repo.idOf t]? = none ∨
      ∃ row, (shadowRows kept p)[kept.repo.idOf t]? = some row ∧ kept.repo.version row = kept.repo.version t) :
    ((kept.repo.writeShadow t).exec p).1 = .ok t := by
  rw [StateRepo.writeShadow, lookAt, query_bind, exec_call, shadow_get]
  rcases ready with absent | ⟨row, stored, current⟩
  · have named : kept.repo.table.info.id.get (kept.repo.shadow 0 t) ≠ [] := by
      rw [← idOf, kept.idOf_shadow]
      exact named_of_platform platform
    have free : (kept.repo.table.rows.get (p.tenants systemTenantID))[kept.repo.table.info.id.get
        (kept.repo.shadow 0 t)]? = none := by
      rw [← idOf, kept.idOf_shadow]
      exact absent
    simp only [absent, Err.wrap, ne_eq, not_true_eq_false, ↓reduceIte, onTenant, invoke_bind, exec_call,
      Lens.act, forTenant_get, TableRepo.create_of_absent kept.keyless named free]
    rfl
  · have found : (kept.repo.table.rows.get (p.tenants systemTenantID))[kept.repo.table.info.id.get
        (kept.repo.shadow (kept.repo.version t) t)]? = some row := by
      rw [← idOf, kept.idOf_shadow]
      exact stored
    have sameVersion : versionOf kept.repo.table.info row =
        versionOf kept.repo.table.info (kept.repo.shadow (kept.repo.version t) t) := by
      rw [kept.versionOf_eq, kept.versionOf_eq, kept.version_shadow, current]
    simp only [stored, StateRepo.updateShadow, onTenant, invoke_bind, exec_call, Lens.act,
      forTenant_get, TableRepo.update_of_current kept.keyless found sameVersion]
    rfl

theorem writeShadow_conflicts (stored : (shadowRows kept p)[kept.repo.idOf t]? = some row)
    (stale : kept.repo.version row ≠ kept.repo.version t) :
    ∃ e, e.kind = .conflict ∧ (kept.repo.writeShadow t).exec p = (.error e, p) := by
  have found : (kept.repo.table.rows.get (p.tenants systemTenantID))[kept.repo.table.info.id.get
      (kept.repo.shadow (kept.repo.version t) t)]? = some row := by
    rw [← idOf, kept.idOf_shadow]
    exact stored
  have otherVersion : versionOf kept.repo.table.info row ≠
      versionOf kept.repo.table.info (kept.repo.shadow (kept.repo.version t) t) := by
    rw [kept.versionOf_eq, kept.versionOf_eq, kept.version_shadow]
    exact fun same => stale (some.inj same)
  obtain ⟨e, conflict, refused⟩ := TableRepo.update_of_stale kept.keyless found otherVersion
  refine ⟨e, conflict, ?_⟩
  rw [StateRepo.writeShadow, lookAt, query_bind, exec_call, shadow_get]
  simp only [stored, StateRepo.updateShadow, onTenant, invoke_bind, exec_call, Lens.act,
    forTenant_get, refused, pure_eq]
  exact congrArg _ ((forTenant systemTenantID).set_get p)

end

section

variable (kept : StateResource) (id : Text)

def storedVersion (s : TenantStore) : Int :=
  ((kept.resource.rows s)[id]?.map kept.repo.version).getD 0

/-- The row is the same, or has a higher version. -/
def Grows (before after : TenantStore) : Prop :=
  (kept.resource.rows after)[id]? = (kept.resource.rows before)[id]? ∨
    ∃ row, (kept.resource.rows after)[id]? = some row ∧ storedVersion kept id before < kept.repo.version row

variable {kept id}

theorem Grows.trans (before : Grows kept id first second) (after : Grows kept id second third) :
    Grows kept id first third := by
  rcases after with same | ⟨row, stored, later⟩
  · rw [Grows, same]
    exact before
  · refine .inr ⟨row, stored, ?_⟩
    rcases before with same | ⟨middle, found, earlier⟩
    · rwa [storedVersion, same] at later
    · rw [storedVersion, found] at later
      exact earlier.trans later

theorem rows_insert_ne (apart : kept.resource = resource → key ≠ id) :
    (kept.resource.rows (resource.repo.table.rows.set ((resource.rows s).insert key row) s))[id]? =
      (kept.resource.rows s)[id]? := by
  by_cases same : kept.resource = resource
  · subst same
    rw [rows, Lens.get_set, get_insert_ne (apart rfl)]
  · rw [resource.rows_set_ne same]

theorem ne_of_own (platform : isPlatformID id = true) (own : isPlatformID key = false) : key ≠ id := by
  rintro rfl
  rw [own] at platform
  cases platform

theorem createShadow_grows (resource : Resource) (row : resource.Row) :
    Grows kept id s (resource.repo.table.create [] row s).2 := by
  rcases resource.repo.table.create_cases [] row s with ⟨failure, failed⟩ | ⟨new, stamped, free, created⟩
  · rw [failed]
    exact .inl rfl
  rw [created]
  by_cases same : kept.resource = resource ∧ resource.repo.table.info.id.get new = id
  · obtain ⟨rfl, rfl⟩ := same
    refine .inr ⟨kept.resource.repo.table.info.truncateRow new, ?_, ?_⟩
    · rw [rows, Lens.get_set, get_insert_same]
    · have absent : (kept.resource.rows s)[kept.resource.repo.table.info.id.get new]? = none := by
        rw [stamped, kept.resource.id_createdRow]
        exact free
      have first := kept.version_createdRow s.tenant s.now (identified kept.resource.repo.table.info [] row)
      rw [kept.toPlatformRepo_repo, ← stamped] at first
      rw [storedVersion, absent, first]
      exact Int.zero_lt_one
  · exact .inl (rows_insert_ne fun sameTable sameID => same ⟨sameTable, sameID⟩)

theorem updateShadow_grows (resource : Resource) (row : resource.Row) :
    Grows kept id s (resource.repo.table.update row s).2 := by
  rcases resource.repo.table.update_cases row s with ⟨failure, failed⟩ | ⟨cur, stored, _, updated⟩
  · rw [failed]
    exact .inl rfl
  rw [updated]
  by_cases same : kept.resource = resource ∧ resource.repo.table.info.id.get row = id
  · obtain ⟨rfl, rfl⟩ := same
    have next := kept.version_updatedRow s.tenant s.now cur row
    rw [kept.toPlatformRepo_repo] at next
    refine .inr ⟨kept.resource.repo.table.info.truncateRow
      (updatedRow kept.resource.repo.table.info s.tenant s.now cur row), ?_, ?_⟩
    · rw [rows, Lens.get_set, get_insert_same]
    · rw [next, storedVersion, rows, stored]
      exact Int.lt_succ _
  · exact .inl (rows_insert_ne fun sameTable sameID => same ⟨sameTable, sameID⟩)

theorem delete_grows {resource : Resource} (apart : key ≠ id) :
    Grows kept id s (resource.repo.table.delete key s).2 := by
  rcases resource.repo.table.delete_cases key s with ⟨failure, failed⟩ | deleted
  · rw [failed]
    exact .inl rfl
  rw [deleted]
  by_cases same : kept.resource = resource
  · subst same
    rw [Grows, rows, Lens.get_set, get_erase, if_neg apart]
    exact .inl rfl
  · exact .inl (by rw [resource.rows_set_ne same])

theorem Effect.grows (made : Effect effect) (platform : isPlatformID id = true) (p : Provider) :
    Grows kept id (p.tenants systemTenantID) ((effect p).tenants systemTenantID) := by
  have confined {β : Type} {caller : Text} {op : TenantStore → Except Err β × TenantStore}
      (grows : Grows kept id (p.tenants caller) (op (p.tenants caller)).2) :
      Grows kept id (p.tenants systemTenantID) ((acting caller op p).tenants systemTenantID) := by
    rw [acting_tenants]
    split
    next system =>
      rw [system]
      exact grows
    · exact .inl rfl
  cases made with
  | quiet => exact .inl rfl
  | create resource caller newID v own =>
      refine confined (.inl ?_)
      rcases resource.repo.table.create_cases newID v (p.tenants caller) with ⟨failure, failed⟩ | ⟨row, stamped, _, created⟩
      · rw [failed]
      · rw [created]
        refine rows_insert_ne fun _ => ne_of_own platform ?_
        rw [stamped, resource.id_createdRow]
        exact own
  | update resource caller v own =>
      refine confined (.inl ?_)
      rcases resource.repo.table.update_cases v (p.tenants caller) with ⟨failure, failed⟩ | ⟨cur, _, _, updated⟩
      · rw [failed]
      · rw [updated]
        exact rows_insert_ne fun _ => ne_of_own platform own
  | delete resource caller key own => exact confined (delete_grows (ne_of_own platform own))
  | createShadow resource row _ _ => exact confined (createShadow_grows resource row)
  | updateShadow resource row _ _ => exact confined (updateShadow_grows resource row)
  | probeHealth caller key h =>
      refine confined (.inl ?_)
      rw [probeMailboxUpdateHealth_eq]
      cases kept <;> rfl
  | bounceHealth caller key h =>
      refine confined (.inl ?_)
      cases kept <;> rfl
  | other caller made passing => exact confined (.inl (by rw [rows_apply passing]))

theorem grows_of_reachable (idle : start.threads = []) (platform : isPlatformID id = true)
    (reached : (overlayCalls cat).Reachable start pool) (onward : (overlayCalls cat).Reachable pool later) :
    Grows kept id (pool.store.tenants systemTenantID) (later.store.tenants systemTenantID) := by
  let kept' (before after : Provider) : Prop :=
    Grows kept id (before.tenants systemTenantID) (after.tenants systemTenantID)
  have along : kept' pool.store later.store :=
    kept_of_reachable (fun _ => .inl rfl) (fun _ _ _ => Grows.trans) (fun _ made => made.grows platform) idle reached
      onward
  exact along

end

/-- What the storage contract says about an update by the system tenant. -/
structure KeepsContract (kept : StateResource) (cat : Catalog) (t : kept.Row) (p : Provider) : Prop where
  stale : ∀ current, (kept.repo.get cat systemTenantID (kept.repo.idOf t)).exec p = (.ok current, p) →
    kept.repo.version t ≠ kept.repo.version current →
    ∃ e, e.kind = .conflict ∧ (kept.repo.update cat systemTenantID t).exec p = (.error e, p)
  handsBack : ∀ t' p', (kept.repo.update cat systemTenantID t).exec p = (.ok t', p') →
    ∃ current, (kept.repo.get cat systemTenantID (kept.repo.idOf t)).exec p' = (.ok current, p') ∧
      kept.repo.version t' = kept.repo.version current
  again : ∀ t' p', (kept.repo.update cat systemTenantID t).exec p = (.ok t', p') →
    ∃ t'' p'', (kept.repo.update cat systemTenantID t').exec p' = (.ok t'', p'')

section

variable {kept : StateResource} {cat : Catalog} {t v : kept.Row}
  (platform : isPlatformID (kept.repo.idOf t) = true)
  (found : kept.repo.virtual cat (kept.repo.idOf t) = some v)
include platform found

theorem shown_version (shown : (kept.repo.get cat systemTenantID (kept.repo.idOf t)).exec p = (.ok current, p)) :
    kept.repo.version current = storedVersion kept (kept.repo.idOf t) (p.tenants systemTenantID) := by
  rw [get_exec platform found] at shown
  obtain rfl := Except.ok.inj (Prod.mk.inj shown).1
  rw [storedVersion, ← shadowRows_eq]
  cases (shadowRows kept p)[kept.repo.idOf t]? with
  | none => exact kept.version_virtual found
  | some row => exact kept.version_overlaid

variable (same : kept.repo.sameConfig v t = true)
include same

/-- A success breaks the contract: the value keeps its version while that of the
shadow row grows. -/
theorem not_keepsContract (ready : (shadowRows kept p)[kept.repo.idOf t]? = none ∨
      ∃ row, (shadowRows kept p)[kept.repo.idOf t]? = some row ∧ kept.repo.version row = kept.repo.version t) :
    ¬KeepsContract kept cat t p := by
  intro contract
  have writes := update_eq_writeShadow platform found same
  obtain ⟨after, succeeded⟩ : ∃ after, (kept.repo.update cat systemTenantID t).exec p = (.ok t, after) := by
    rw [writes]
    exact ⟨_, Prod.ext (writeShadow_succeeds platform ready) rfl⟩
  have current : kept.repo.version t = storedVersion kept (kept.repo.idOf t) (p.tenants systemTenantID) := by
    by_contra other
    rw [← shown_version platform found (get_exec platform found)] at other
    obtain ⟨e, _, refused⟩ := contract.stale _ (get_exec platform found) other
    rw [refused] at succeeded
    cases succeeded
  obtain ⟨read, shown, handed⟩ := contract.handsBack t after succeeded
  have swapped : Swaps kept t p after := by
    rw [writes] at succeeded
    exact (writeShadow_swaps platform).run succeeded
  obtain ⟨new, rfl, grown⟩ := swapped
  rw [shown_version platform found shown, storedVersion, ← shadowRows_eq, get_withShadow] at handed
  rw [storedVersion, ← shadowRows_eq] at current
  rcases grown with ⟨absent, first⟩ | ⟨row, stored, sameVersion, next⟩
  · rw [absent] at current
    simp only [map_none, getD_none, map_some, getD_some] at current handed
    omega
  · simp only [map_some, getD_some] at handed
    omega

theorem keepsContract_iff :
    KeepsContract kept cat t p ↔
      ∃ row, (shadowRows kept p)[kept.repo.idOf t]? = some row ∧ kept.repo.version row ≠ kept.repo.version t := by
  constructor
  · intro contract
    cases stored : (shadowRows kept p)[kept.repo.idOf t]? with
    | none => exact absurd contract (not_keepsContract platform found same (.inl stored))
    | some row =>
        refine ⟨row, rfl, fun current => ?_⟩
        exact not_keepsContract platform found same (.inr ⟨row, stored, current⟩) contract
  · rintro ⟨row, stored, stale⟩
    obtain ⟨e, conflict, refused⟩ := writeShadow_conflicts stored stale
    rw [← update_eq_writeShadow platform found same] at refused
    refine ⟨fun _ _ _ => ⟨e, conflict, refused⟩, fun t' p' succeeded => ?_, fun t' p' succeeded => ?_⟩ <;>
      rw [refused] at succeeded <;> cases succeeded

end

theorem swap_meets_read {t v current : kept.Row} {read before after : Provider}
    (platform : isPlatformID (kept.repo.idOf t) = true) (found : kept.repo.virtual cat (kept.repo.idOf t) = some v)
    (grows : Grows kept (kept.repo.idOf t) (read.tenants systemTenantID) (before.tenants systemTenantID))
    (shown : (kept.repo.get cat systemTenantID (kept.repo.idOf t)).exec read = (.ok current, read))
    (unedited : kept.repo.version t = kept.repo.version current) (swapped : Swaps kept t before after) :
    (shadowRows kept before)[kept.repo.idOf t]? = (shadowRows kept read)[kept.repo.idOf t]? := by
  rw [shown_version platform found shown] at unedited
  rw [shadowRows_eq, shadowRows_eq]
  rcases grows with same | ⟨row, stored, higher⟩
  · exact same
  · obtain ⟨new, _, ⟨absent, _⟩ | ⟨met, found, sameVersion, _⟩⟩ := swapped
    · rw [shadowRows_eq, stored] at absent
      cases absent
    · rw [shadowRows_eq, stored] at found
      cases found
      omega

/-- An update of a shared resource keeps the storage contract exactly if a shadow
row with another version turns it away: a success leaves the caller with the
version it came with.  Among any calls of others it is one swap of the row that its
caller has read, or no change, so no write is lost. -/
theorem platform_update_keeps_contract_iff (kept : StateResource) {cat : Catalog} {t v : kept.Row}
    (platform : isPlatformID (kept.repo.idOf t) = true) (found : kept.repo.virtual cat (kept.repo.idOf t) = some v)
    (same : kept.repo.sameConfig v t = true) :
    (∀ p, KeepsContract kept cat t p ↔
      ∃ row, (shadowRows kept p)[kept.repo.idOf t]? = some row ∧ kept.repo.version row ≠ kept.repo.version t) ∧
    (kept.repo.update cat systemTenantID t).Commits (Swaps kept t) ∧
    ∀ start earlier later : Pool Unit Provider Err, start.threads = [] →
      (overlayCalls cat).Reachable start earlier → (overlayCalls cat).Reachable earlier later → ∀ current after,
        (kept.repo.get cat systemTenantID (kept.repo.idOf t)).exec earlier.store = (.ok current, earlier.store) →
        kept.repo.version t = kept.repo.version current → Swaps kept t later.store after →
        (shadowRows kept later.store)[kept.repo.idOf t]? = (shadowRows kept earlier.store)[kept.repo.idOf t]? := by
  refine ⟨fun p => keepsContract_iff platform found same, ?_, ?_⟩
  · rw [update_eq_writeShadow platform found same]
    exact writeShadow_swaps platform
  · intro start earlier later idle reached onward current after shown unedited swapped
    exact swap_meets_read platform found (grows_of_reachable idle platform reached onward) shown unedited swapped

def reportedProvider : Provider :=
  ((transports.update sharedCatalog systemTenantID downRelay).exec quietProvider).2

theorem other_version_keeps_contract :
    KeepsContract .transport sharedCatalog { downRelay with version := 7 } reportedProvider := by
  refine ((platform_update_keeps_contract_iff .transport (v := { id := relayID, host := text "relay.example", shared := true })
    (by decide) (by decide) (by decide)).1 reportedProvider).mpr ⟨relayShadow, ?_, ?_⟩
  · decide +kernel
  · decide

/-- The value that has just been written successfully, with the version that the
caller is left with, is refused. -/
theorem second_report_conflicts :
    ((transports.update sharedCatalog systemTenantID downRelay).exec quietProvider).1 = .ok downRelay ∧
      ((transports.get sharedCatalog systemTenantID relayID).exec reportedProvider).1.toOption.map Transport.version =
        some 1 ∧ downRelay.version = 0 ∧
      ((transports.update sharedCatalog systemTenantID downRelay).exec reportedProvider).1.mapError Err.kind =
        .error .conflict := by
  decide +kernel

end Sendplane.Overlay
