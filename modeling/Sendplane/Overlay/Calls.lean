import Sendplane.Overlay.Basic

namespace Sendplane.Overlay

open Data Store Memstore Prog TenantStore Provider PlatformRepo

namespace Resource

/-- The row without what a shadow row may hold: its identity, its state, its
version and its timestamps. -/
def config : (resource : Resource) → resource.Row → resource.Row
  | transport, t =>
      { t with
        id := [], tenantID := [], shared := false, version := 0, createdAt := 0, updatedAt := 0
        status := .healthy, statusReason := [], statusChangedAt := 0, statusUntil := 0 }
  | sender, s =>
      { s with
        id := [], tenantID := [], shared := false, version := 0, createdAt := 0, updatedAt := 0
        health := .unknown, healthReason := [], healthCheckedAt := 0 }
  | domain, d =>
      { d with
        id := [], tenantID := [], shared := false, version := 0, createdAt := 0, updatedAt := 0
        health := .unknown, healthReason := [], healthCheckedAt := 0 }
  | probeMailbox, m =>
      { m with
        id := [], tenantID := [], shared := false, version := 0, createdAt := 0, updatedAt := 0
        health := {} }
  | bounceMailbox, m =>
      { m with
        id := [], tenantID := [], shared := false, version := 0, createdAt := 0, updatedAt := 0
        health := {} }

def empty : (resource : Resource) → resource.Row
  | transport => {}
  | sender => {}
  | domain => {}
  | probeMailbox => {}
  | bounceMailbox => {}

end Resource

def overlays : RowKind → Bool
  | .transport | .sender | .domain | .probeMailbox | .bounceMailbox => true
  | .layout | .template | .probeRun | .version | .campaign | .bounce => false

/-- The calls that reach the backing store as they are.  Templates and layouts
have an overlay of their own, which refuses some of the calls on them. -/
def passes : RepoCall → Bool
  | .create kind _ _ | .update kind _ | .delete kind _ => !overlays kind
  | .bounceMailboxUpdateHealth .. | .probeMailboxUpdateHealth .. => false
  | _ => true

theorem rows_set_apart {kind : RowKind} (apart : overlays kind = false) (resource : Resource)
    (rows : Table Text kind.Row) : resource.rows (kind.repo.rows.set rows s) = resource.rows s := by
  cases kind with
  | transport | sender | domain | probeMailbox | bounceMailbox => cases apart
  | layout | template | probeRun | version | campaign | bounce => cases resource <;> rfl

theorem rows_apply {call : RepoCall} (passing : passes call = true) (resource : Resource) :
    resource.rows (call.apply s).2 = resource.rows s := by
  cases call with
  | create kind | update kind | delete kind =>
      have apart : overlays kind = false := by simpa [passes] using passing
      exact rows_set_apart apart resource _
  | bounceMailboxUpdateHealth | probeMailboxUpdateHealth => cases passing
  | campaignUpdateStats id stats =>
      simp only [RepoCall.apply, campaignUpdateStats]
      cases s.campaigns[id]? <;> cases resource <;> rfl
  | settingsCreate v =>
      simp only [RepoCall.apply, settingsCreate]
      cases s.settings <;> cases resource <;> rfl
  | settingsUpdate v =>
      simp only [RepoCall.apply, settingsUpdate]
      cases s.settings with
      | none => rfl
      | some cur =>
          dsimp only
          split <;> cases resource <;> rfl
  | chunkPut c =>
      simp only [RepoCall.apply, chunkPut]
      split <;> cases resource <;> rfl
  | suppressionUpsert v =>
      simp only [RepoCall.apply, suppressionUpsert]
      split <;> cases resource <;> rfl
  | suppressionDelete emailNorm =>
      simp only [RepoCall.apply, suppressionDelete]
      cases s.suppressions[emailNorm]? <;> cases resource <;> rfl
  | workerHeartbeat w =>
      simp only [RepoCall.apply, workerHeartbeat]
      split <;> cases resource <;> rfl
  | _ => cases resource <;> rfl

abbrev NewID := { id : Text // isPlatformID id = false }

/-- The calls of all repositories. -/
inductive Call where
  | create (resource : Resource) (tenantID : Text) (newID : NewID) (v : resource.Row)
  | get (resource : Resource) (tenantID id : Text)
  | update (resource : Resource) (tenantID : Text) (v : resource.Row)
  | delete (resource : Resource) (tenantID id : Text)
  | list (resource : Resource) (tenantID : Text) (page : Page)
  | listEnabled (tenantID : Text)
  | probeMailboxUpdateHealth (tenantID id : Text) (h : MailboxHealth)
  | bounceMailboxUpdateHealth (tenantID id : Text) (h : MailboxHealth)
  | other (tenantID : Text) (made : RepoCall) (passing : passes made = true)

def Call.program (cat : Catalog) : Call → Op Unit
  | .create resource tenantID newID v => (resource.repo.create tenantID newID v).discard
  | .get resource tenantID id => (resource.repo.get cat tenantID id).discard
  | .update resource tenantID v => (resource.update cat tenantID v).discard
  | .delete resource tenantID id => (resource.repo.delete tenantID id).discard
  | .list resource tenantID page => (resource.repo.list cat tenantID page).discard
  | .listEnabled tenantID => (Overlay.listEnabled cat tenantID).discard
  | .probeMailboxUpdateHealth tenantID id h => (probeMailboxes.updateHealth cat tenantID id h).discard
  | .bounceMailboxUpdateHealth tenantID id h => (bounceMailboxes.updateHealth cat tenantID id h).discard
  | .other tenantID made _ => (onTenant tenantID fun s => (.ok (), (made.apply s).2)).discard

def overlayCalls (cat : Catalog) : System (Pool Unit Provider Err) (Move Call Err) :=
  Pool.system (Call.program cat)

def acting {β : Type} (tenantID : Text) (op : TenantStore → Except Err β × TenantStore) (p : Provider) : Provider :=
  ((Provider.forTenant tenantID).act op p).2

theorem acting_tenants {β : Type} (op : TenantStore → Except Err β × TenantStore) :
    (acting tenantID op p).tenants other =
      if other = tenantID then (op (p.tenants tenantID)).2 else p.tenants other := by
  rw [acting, Lens.act, forTenant_set, put_get, forTenant_get]

/-- Own rows are written as they are, shadow rows with nothing but state in them. -/
inductive Effect : (Provider → Provider) → Prop where
  | quiet : Effect id
  | create (resource : Resource) (tenantID newID : Text) (v : resource.Row)
      (own : isPlatformID (resource.repo.idOf (identified resource.repo.table.info newID v)) = false) :
      Effect (acting tenantID (resource.repo.table.create newID v))
  | update (resource : Resource) (tenantID : Text) (v : resource.Row)
      (own : isPlatformID (resource.repo.idOf v) = false) :
      Effect (acting tenantID (resource.repo.table.update v))
  | delete (resource : Resource) (tenantID id : Text) (own : isPlatformID id = false) :
      Effect (acting tenantID (resource.repo.table.delete id))
  | createShadow (resource : Resource) (row : resource.Row) (platform : isPlatformID (resource.repo.idOf row) = true)
      (state : resource.config row = resource.empty) :
      Effect (acting systemTenantID (resource.repo.table.create [] row))
  | updateShadow (resource : Resource) (row : resource.Row) (platform : isPlatformID (resource.repo.idOf row) = true)
      (state : resource.config row = resource.empty) :
      Effect (acting systemTenantID (resource.repo.table.update row))
  | probeHealth (tenantID id : Text) (h : MailboxHealth) :
      Effect (acting tenantID fun s => s.probeMailboxUpdateHealth id h)
  | bounceHealth (tenantID id : Text) (h : MailboxHealth) :
      Effect (acting tenantID fun s => s.bounceMailboxUpdateHealth id h)
  | other (tenantID : Text) (made : RepoCall) (passing : passes made = true) :
      Effect (acting tenantID fun s => ((.ok () : Except Err Unit), (made.apply s).2))

abbrev Effects {α : Type} (program : Op α) : Prop :=
  program.Makes (fun _ effect => Effect effect) fun _ => True

section

variable {α β : Type}

theorem lookAt_effects (look : TenantStore → Except Err α) : Effects (lookAt tenantID look) :=
  ⟨.quiet, fun _ => trivial, fun _ => trivial⟩

theorem lookAt_bind_effects (continues : ∀ reply, Effects (next reply)) : Effects (lookAt tenantID look >>= next) :=
  makes_query .quiet fun reply _ => continues reply

theorem onTenant_effects (effect : Effect (acting tenantID op)) : Effects (onTenant tenantID op) :=
  ⟨effect, fun _ => trivial, fun _ => trivial⟩

theorem onTenant_bind_effects (effect : Effect (acting tenantID op)) (continues : ∀ reply, Effects (next reply)) :
    Effects (onTenant tenantID op >>= next) :=
  makes_invoke effect continues

theorem discard_effects {program : Op α} (effects : Effects program) : Effects program.discard :=
  effects.bind fun _ _ => trivial

theorem shown_effects {repo : PlatformRepo α} (v : α) (program : Op (Except Err α))
    (visible : repo.shown tenantID v = some program) : Effects program := by
  rw [shown] at visible
  split at visible
  · cases visible
    refine lookAt_bind_effects fun reply => ?_
    cases reply with
    | ok shadow => trivial
    | error e =>
        dsimp only
        split <;> trivial
  · obtain ⟨view, _, rfl⟩ := Option.map_eq_some_iff.mp visible
    trivial

variable {repo : StateRepo α}

theorem writeShadow_effects (creates : Effect (acting systemTenantID (repo.table.create [] (repo.shadow 0 t))))
    (updates : Effect (acting systemTenantID (repo.table.update (repo.shadow (repo.version t) t)))) :
    Effects (repo.writeShadow t) := by
  have updated : Effects (repo.updateShadow t) := by
    refine onTenant_bind_effects updates fun reply => ?_
    cases reply <;> trivial
  refine lookAt_bind_effects fun reply => ?_
  cases reply with
  | ok row => exact updated
  | error e =>
      dsimp only
      split
      · trivial
      · refine onTenant_bind_effects creates fun reply => ?_
        cases reply with
        | ok row => trivial
        | error e =>
            dsimp only
            split
            · trivial
            · refine lookAt_bind_effects fun reply => ?_
              cases reply with
              | ok row => exact updated
              | error e => trivial

theorem state_update_effects
    (plain : isPlatformID (repo.idOf t) = false → Effect (acting tenantID (repo.table.update t)))
    (shadow : isPlatformID (repo.idOf t) = true → Effects (repo.writeShadow t)) :
    Effects (repo.update cat tenantID t) := by
  rw [StateRepo.update]
  cases platform : isPlatformID (repo.idOf t) with
  | false => exact onTenant_effects (plain platform)
  | true =>
      simp only [Bool.not_true, Bool.false_eq_true, ↓reduceIte]
      split
      · trivial
      · split
        · trivial
        · exact shadow platform

theorem health_update_effects {repo : HealthRepo α}
    (plain : isPlatformID (repo.idOf m) = false → Effect (acting tenantID (repo.table.update m))) :
    Effects (repo.update tenantID m) := by
  rw [HealthRepo.update]
  split
  · trivial
  next own => exact onTenant_effects (plain (by simpa using own))

theorem updateHealth_effects {repo : HealthRepo α} {id : Text}
    (writes : ∀ tenantID, Effect (acting tenantID (repo.writeHealth id h)))
    (creates : isPlatformID id = true → Effect (acting systemTenantID (repo.table.create [] (repo.shadow id h)))) :
    Effects (repo.updateHealth cat tenantID id h) := by
  rw [HealthRepo.updateHealth]
  cases platform : isPlatformID id with
  | false => exact onTenant_effects (writes tenantID)
  | true =>
      simp only [Bool.not_true, Bool.false_eq_true, ↓reduceIte]
      split
      · trivial
      · refine onTenant_bind_effects (writes systemTenantID) fun reply => ?_
        cases reply with
        | ok => trivial
        | error e =>
            dsimp only
            split
            · trivial
            · refine onTenant_bind_effects (creates platform) fun reply => ?_
              cases reply with
              | ok row => trivial
              | error e =>
                  dsimp only
                  split
                  · exact onTenant_effects (writes systemTenantID)
                  · trivial

end

section

variable (resource : Resource)

theorem id_identified : resource.repo.idOf (identified resource.repo.table.info newID v) =
      if resource.repo.idOf v = [] then newID else resource.repo.idOf v := by
  unfold identified idOf
  split
  · cases resource <;> rfl
  · rfl

theorem create_effects (newID : NewID) : Effects (resource.repo.create tenantID newID v) := by
  rw [PlatformRepo.create]
  split
  · trivial
  next own =>
    refine onTenant_effects (.create resource tenantID newID v ?_)
    rw [id_identified]
    split
    · exact newID.2
    · simpa using own

theorem delete_effects (id : Text) : Effects (resource.repo.delete tenantID id) := by
  rw [PlatformRepo.delete]
  split
  · trivial
  next own => exact onTenant_effects (.delete resource tenantID id (by simpa using own))

theorem update_effects : Effects (resource.update cat tenantID v) := by
  cases resource with
  | transport =>
      refine state_update_effects (.update .transport tenantID v) (fun platform => ?_)
      exact writeShadow_effects (.createShadow .transport _ platform rfl) (.updateShadow .transport _ platform rfl)
  | sender =>
      refine state_update_effects (.update .sender tenantID v) (fun platform => ?_)
      exact writeShadow_effects (.createShadow .sender _ platform rfl) (.updateShadow .sender _ platform rfl)
  | domain =>
      refine state_update_effects (.update .domain tenantID v) (fun platform => ?_)
      exact writeShadow_effects (.createShadow .domain _ platform rfl) (.updateShadow .domain _ platform rfl)
  | probeMailbox => exact health_update_effects (.update .probeMailbox tenantID v)
  | bounceMailbox => exact health_update_effects (.update .bounceMailbox tenantID v)

end

theorem program_effects (call : Call) : Effects (call.program cat) := by
  have composes : Composes fun {_} (program : Op _) => Effects program := composes_makes
  cases call with
  | create resource tenantID newID v => exact discard_effects (create_effects resource newID)
  | get resource tenantID id =>
      exact discard_effects (get_fine composes lookAt_effects shown_effects id)
  | update resource tenantID v => exact discard_effects (update_effects resource)
  | delete resource tenantID id => exact discard_effects (delete_effects resource id)
  | list resource tenantID page =>
      exact discard_effects (list_fine composes lookAt_effects shown_effects)
  | listEnabled tenantID => exact discard_effects (listEnabled_fine composes lookAt_effects shown_effects)
  | probeMailboxUpdateHealth tenantID id h =>
      refine discard_effects (updateHealth_effects (fun tenantID => .probeHealth tenantID id h) (fun platform => ?_))
      exact .createShadow .probeMailbox _ platform rfl
  | bounceMailboxUpdateHealth tenantID id h =>
      refine discard_effects (updateHealth_effects (fun tenantID => .bounceHealth tenantID id h) (fun platform => ?_))
      exact .createShadow .bounceMailbox _ platform rfl
  | other tenantID made passing => exact discard_effects (onTenant_effects (.other tenantID made passing))

theorem kept_of_reachable {kept : Provider → Provider → Prop} (reflexive : ∀ p, kept p p)
    (transitive : ∀ first second third, kept first second → kept second third → kept first third)
    (keeps : ∀ effect, Effect effect → ∀ p, kept p (effect p)) (idle : start.threads = [])
    (reached : (overlayCalls cat).Reachable start pool) (onward : (overlayCalls cat).Reachable pool later) :
    kept pool.store later.store := by
  have always {first second : Pool Unit Provider Err} (runs : (overlayCalls cat).Reachable first second) :
      (overlayCalls cat).Reaches (Pool.Permits fun _ _ _ => True) first second := by
    refine Relation.ReflTransGen.mono ?_ _ _ runs
    rintro before after ⟨move, _, stepped⟩
    exact ⟨move, fun _ _ => trivial, stepped⟩
  let keeping : Discipline Unit Provider Err := { allowed := fun _ _ _ => True, guarantee := fun _ => kept }
  have spawned (call : Call) (p : Provider) (_ : True) : (call.program cat).Respects keeping (fun _ _ => True) p :=
    (program_effects call).respects (fun _ effect now made _ => keeps effect made now)
  have stable : keeping.Stable fun _ => True := fun _ _ _ _ _ => trivial
  obtain ⟨_, disciplined⟩ := Pool.disciplined_of_reaches spawned stable idle trivial (always reached)
  obtain ⟨meanwhile, _⟩ := Pool.interferes_of_reaches spawned stable disciplined trivial (always onward)
  have growing : keeping.Stable (kept pool.store) :=
    fun _ before after guaranteed held => transitive _ before after held guaranteed
  exact growing.interferes meanwhile (reflexive _)

section

variable {α β : Type} {op : TenantStore → Except Err α × TenantStore}

theorem onTenant_bind_commits {next : Except Err α → Op (Except Err β)}
    (refused : ∀ s, (op s).1.isOk = false → (op s).2 = s)
    (swaps : ∀ p v, (op (p.tenants tenantID)).1 = .ok v → swap p (acting tenantID op p))
    (succeeds : ∀ v, ∃ value, next (.ok v) = .done (.ok value)) (failed : ∀ e, (next (.error e)).Commits swap) :
    (onTenant tenantID op >>= next).Commits swap := by
  refine commits_call (fun p => ?_) failed
  cases answered : (op (p.tenants tenantID)).1 with
  | ok v =>
      refine .inr ⟨swaps p v answered, ?_⟩
      simp only [Lens.act, forTenant_get, answered]
      exact succeeds v
  | error e =>
      simp only [Lens.act, forTenant_get, answered, refused _ (by rw [answered]; rfl)]
      exact .inl ⟨(forTenant tenantID).set_get p, failed e⟩

theorem onTenant_failsClean (refused : ∀ s, (op s).1.isOk = false → (op s).2 = s) :
    (onTenant tenantID op).FailsClean := by
  have commits : (onTenant tenantID op >>= done).Commits fun _ _ => True :=
    onTenant_bind_commits refused (fun _ _ _ => trivial) (fun v => ⟨v, rfl⟩) fun e => commits_refuse e
  exact commits.failsClean

theorem failsClean_refuse : (done (.error e) : Op (Except Err α)).FailsClean :=
  (commits_refuse e : Commits (fun _ _ => True) _).failsClean

variable {table : TableRepo α} {v : α} {s : TenantStore} {e : Err}

/-- However the calls of others come in between, a write of a state is one swap
of the shadow row. -/
theorem writeShadow_commits {repo : StateRepo α}
    (creates : ∀ p v, (repo.table.create [] (repo.shadow 0 t) (p.tenants systemTenantID)).1 = .ok v →
      swap p (acting systemTenantID (repo.table.create [] (repo.shadow 0 t)) p))
    (updates : ∀ p v, (repo.table.update (repo.shadow (repo.version t) t) (p.tenants systemTenantID)).1 = .ok v →
      swap p (acting systemTenantID (repo.table.update (repo.shadow (repo.version t) t)) p)) :
    (repo.writeShadow t).Commits swap := by
  have updated : (repo.updateShadow t).Commits swap :=
    onTenant_bind_commits (fun _ => TableRepo.update_refused) updates (fun _ => ⟨t, rfl⟩) fun e => commits_refuse e
  refine commits_query fun reply => ?_
  cases reply with
  | ok row => exact updated
  | error e =>
      dsimp only
      split
      · exact commits_refuse e
      · refine onTenant_bind_commits (fun _ => TableRepo.create_refused) creates (fun _ => ⟨t, rfl⟩) fun e => ?_
        dsimp only
        split
        · exact commits_refuse e
        · refine commits_query fun reply => ?_
          cases reply with
          | ok row => exact updated
          | error e => exact commits_refuse e

theorem state_update_failsClean (repo : StateRepo α) : (repo.update cat tenantID t).FailsClean := by
  rw [StateRepo.update]
  split
  · exact onTenant_failsClean fun _ => TableRepo.update_refused
  · split
    · exact failsClean_refuse
    · split
      · exact failsClean_refuse
      · have commits : (repo.writeShadow t).Commits fun _ _ => True :=
          writeShadow_commits (fun _ _ _ => trivial) fun _ _ _ => trivial
        exact commits.failsClean

theorem health_update_failsClean (repo : HealthRepo α) : (repo.update tenantID m).FailsClean := by
  rw [HealthRepo.update]
  split
  · exact failsClean_refuse
  · exact onTenant_failsClean fun _ => TableRepo.update_refused

end

section

variable (resource : Resource) {tenantID : Text}

theorem create_failsClean : (resource.repo.create tenantID newID v).FailsClean := by
  rw [PlatformRepo.create]
  split
  · exact failsClean_refuse
  · exact onTenant_failsClean fun _ => TableRepo.create_refused

theorem update_failsClean : (resource.update cat tenantID v).FailsClean := by
  cases resource with
  | transport => exact state_update_failsClean transports
  | sender => exact state_update_failsClean senders
  | domain => exact state_update_failsClean domains
  | probeMailbox => exact health_update_failsClean probeMailboxes
  | bounceMailbox => exact health_update_failsClean bounceMailboxes

theorem delete_failsClean (id : Text) : (resource.repo.delete tenantID id).FailsClean := by
  rw [PlatformRepo.delete]
  split
  · exact failsClean_refuse
  · exact onTenant_failsClean fun _ => TableRepo.delete_refused

end

end Sendplane.Overlay
