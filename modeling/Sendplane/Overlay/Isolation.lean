import Sendplane.Overlay.Basic

namespace Sendplane.Overlay

open Data Store Memstore

/-- The tenant's own stores agree. -/
def SameFor (tenantID : Text) (p q : Provider) : Prop :=
  p.tenants tenantID = q.tenants tenantID

variable {tenantID : Text} {α : Type}

theorem lookAt_blind (look : TenantStore → Except Err α) : (lookAt tenantID look).Blind (SameFor tenantID) :=
  Prog.blind_query fun _ _ same => congrArg look same

theorem shown_blind {repo : PlatformRepo α} (normal : tenantID ≠ systemTenantID) (v : α)
    (program : Op (Except Err α)) (visible : repo.shown tenantID v = some program) :
    program.Blind (SameFor tenantID) := by
  rw [PlatformRepo.shown, if_neg normal] at visible
  obtain ⟨view, _, rfl⟩ := Option.map_eq_some_iff.mp visible
  trivial

def withoutShadowRows {α : Type} (rows : Table Text α) : Table Text α :=
  rows.filter fun id _ => !isPlatformID id

theorem withoutShadowRows_insert {id : Text} (platform : isPlatformID id = true) :
    withoutShadowRows (rows.insert id row) = withoutShadowRows rows := by
  refine Std.ExtTreeMap.ext_getElem? fun other => ?_
  rw [withoutShadowRows, withoutShadowRows, Std.ExtTreeMap.getElem?_filter', Std.ExtTreeMap.getElem?_filter',
    Table.get_insert]
  by_cases same : id = other
  · subst same
    cases rows[id]? <;> simp [platform]
  · rw [if_neg same]

def unshadowed (s : TenantStore) : TenantStore :=
  { s with
    transports := withoutShadowRows s.transports
    senders := withoutShadowRows s.senders
    domains := withoutShadowRows s.domains
    probeMailboxes := withoutShadowRows s.probeMailboxes
    bounceMailboxes := withoutShadowRows s.bounceMailboxes }

/-- The stores agree up to the shadow rows of the system tenant. -/
structure SameButShadows (p q : Provider) : Prop where
  system : unshadowed (p.tenants systemTenantID) = unshadowed (q.tenants systemTenantID)
  others : ∀ tenantID, tenantID ≠ systemTenantID → p.tenants tenantID = q.tenants tenantID

/-- A tenant's reads answer the same whatever the shadow rows are. -/
theorem reads_ignore_shadows {p q : Provider} (same : SameButShadows p q)
    (normal : tenantID ≠ systemTenantID) (cat : Catalog) (plan : Nat → Option Err) :
    (∀ (resource : Resource) (id : Text),
      ((resource.repo.get cat tenantID id).run plan p).1 = ((resource.repo.get cat tenantID id).run plan q).1) ∧
    (∀ (resource : Resource) (page : Page),
      ((resource.repo.list cat tenantID page).run plan p).1 = ((resource.repo.list cat tenantID page).run plan q).1) ∧
    ((listEnabled cat tenantID).run plan p).1 = ((listEnabled cat tenantID).run plan q).1 := by
  have own : SameFor tenantID p q := same.others tenantID normal
  have composes : Prog.Composes fun {_} (program : Op _) => program.Blind (SameFor tenantID) := Prog.composes_blind
  refine ⟨fun resource id => ?_, fun resource page => ?_, ?_⟩
  · exact (PlatformRepo.get_fine composes lookAt_blind (shown_blind normal) id).run plan own
  · exact (PlatformRepo.list_fine composes lookAt_blind (shown_blind normal)).run plan own
  · exact (listEnabled_fine composes lookAt_blind (shown_blind normal)).run plan own

def relayID : Text := text "sys:relay"

def noreplyID : Text := text "sys:noreply"

def sharedCatalog : Catalog where
  transports := [{ id := relayID, host := text "relay.example", shared := true }]
  senders := [{ id := noreplyID, fromEmail := text "no-reply@example.com", shared := true }]

def quietProvider : Provider where
  tenants tenant := { tenant }

/-- Shadow rows say that the shared relay is down and the shared sender red. -/
def failingProvider : Provider :=
  quietProvider.put systemTenantID
    { tenant := systemTenantID
      transports := (∅ : Table Text Transport).insert relayID { id := relayID, status := .unhealthy, version := 3 }
      senders := (∅ : Table Text Sender).insert noreplyID { id := noreplyID, health := .red, version := 2 } }

/-- The tenant still lists the shared sender without a verdict. -/
theorem tenant_ignores_failing_relay :
    ((Resource.sender.repo.list sharedCatalog (text "acme") {}).run (fun _ => none) quietProvider).1 =
      ((Resource.sender.repo.list sharedCatalog (text "acme") {}).run (fun _ => none) failingProvider).1 := by
  have same : SameButShadows quietProvider failingProvider := by
    refine ⟨?_, fun tenantID normal => ?_⟩
    · rw [failingProvider, Provider.put_same]
      simp only [unshadowed, withoutShadowRows_insert (show isPlatformID relayID = true by decide),
        withoutShadowRows_insert (show isPlatformID noreplyID = true by decide)]
      rfl
    · simp [failingProvider, Provider.put_get, if_neg normal]
  exact (reads_ignore_shadows same (by decide) sharedCatalog fun _ => none).2.1 .sender {}

end Sendplane.Overlay
