import Sendplane.Overlay.Versions

namespace Sendplane.Overlay

open Data Store Memstore Prog Provider

/-! # The overlay without interference

Senders, probes and bounces run over a provider that reads or writes a shared
resource in one step: the overlay when no other call comes in between.
-/

variable {tenantID id : Text} {p : Provider} {cat : Catalog}

section

variable {α : Type} {repo : PlatformRepo α}

theorem merged_exec (v : α) : (repo.merged v).exec p =
    (.ok (match (repo.table.rows.get (p.tenants systemTenantID))[repo.idOf v]? with
      | none => v
      | some shadow => repo.overlaid v shadow), p) := by
  simp only [PlatformRepo.merged, lookAt, query_bind, exec_call, TableRepo.get, find]
  cases (repo.table.rows.get (p.tenants systemTenantID))[repo.idOf v]? <;> rfl

/-- A read of an aggregate whose virtual rows only the system tenant sees. -/
theorem get_exec_hidden (hidden : repo.view = none) : (repo.get cat tenantID id).exec p =
    (if !isPlatformID id then repo.table.get id (p.tenants tenantID)
      else if tenantID ≠ systemTenantID then .error (notFound repo.kind id)
      else match repo.virtual cat id with
        | none => .error (notFound repo.kind id)
        | some v => ((repo.merged v).exec p).1, p) := by
  rw [PlatformRepo.get]
  split
  · rfl
  cases repo.virtual cat id with
  | none =>
      split
      all_goals rfl
  | some v =>
      by_cases system : tenantID = systemTenantID
      · simp [PlatformRepo.shown, system, merged_exec]
      · simp only [Option.bind_some, PlatformRepo.shown, system, hidden, Option.map_none, Option.getD_none, ne_eq,
          not_false_eq_true, ↓reduceIte]
        rfl

end

/-- What the provider answers is what the overlay answers when it runs alone. -/
theorem transportGet_eq (configured : p.platformTransports = cat.transports) :
    (transports.get cat tenantID id).exec p = (p.transportGet tenantID id, p) := by
  rw [get_exec_hidden rfl, transportGet, configured]
  congr 3
  have listed : transports.virtual cat id = cat.transports.find? fun v => v.id = id := rfl
  rw [listed]
  cases cat.transports.find? fun v : Transport => v.id = id with
  | none => rfl
  | some v =>
      have stored : (transports.table.rows.get (p.tenants systemTenantID))[transports.idOf v]? =
          (p.tenants systemTenantID).transports[v.id]? := rfl
      dsimp only
      rw [merged_exec, mergedTransport, stored]
      cases (p.tenants systemTenantID).transports[v.id]? <;> rfl

theorem domainGet_eq (configured : p.platformDomains = cat.domains) :
    (domains.get cat tenantID id).exec p = (p.domainGet tenantID id, p) := by
  rw [get_exec_hidden rfl, domainGet, configured]
  congr 3
  have listed : domains.virtual cat id = cat.domains.find? fun v => v.id = id := rfl
  rw [listed]
  cases cat.domains.find? fun v : SendingDomain => v.id = id with
  | none => rfl
  | some v =>
      have stored : (domains.table.rows.get (p.tenants systemTenantID))[domains.idOf v]? =
          (p.tenants systemTenantID).domains[v.id]? := rfl
      dsimp only
      rw [merged_exec, mergedDomain, stored]
      cases (p.tenants systemTenantID).domains[v.id]? <;> rfl

theorem senderGet_eq (configured : p.platformSenders = cat.senders) :
    (senders.get cat tenantID id).exec p = (p.senderGet tenantID id, p) := by
  rw [PlatformRepo.get, senderGet, configured]
  split
  · rfl
  have listed : senders.virtual cat id = cat.senders.find? fun v => v.id = id := rfl
  rw [listed]
  cases cat.senders.find? fun v : Sender => v.id = id with
  | none => rfl
  | some v =>
      dsimp only
      rw [Option.bind_some, PlatformRepo.shown, senderView]
      split
      next system =>
        have stored : (senders.table.rows.get (p.tenants systemTenantID))[senders.idOf v]? =
            (p.tenants systemTenantID).senders[v.id]? := rfl
        rw [if_neg (not_not_intro system), Option.getD_some, merged_exec, stored]
        cases (p.tenants systemTenantID).senders[v.id]? <;> rfl
      · rfl

section

variable {t : Transport}

theorem act_update : (forTenant tenantID).act (transports.table.update t) p = p.rowUpdate tenantID t := by
  rw [Lens.act, TableRepo.update_keyless fun _ => rfl, rowUpdate]
  rfl

theorem act_create (named : t.id ≠ []) :
    (forTenant tenantID).act (transports.table.create [] t) p = p.rowCreate tenantID t := by
  have unnumbered (newID : Text) (s : TenantStore) : create transportMeta s.tenant s.now newID s.transports t =
      create transportMeta s.tenant s.now [] s.transports t := by
    have kept : transportMeta.id.get t ≠ [] := named
    simp [create, if_neg kept]
  rw [Lens.act, TableRepo.create_keyless fun _ => rfl, rowCreate, unnumbered]
  rfl

theorem writeShadow_eq (platform : isPlatformID t.id = true) :
    (transports.writeShadow t).exec p = ((p.writeShadow t).1.map fun _ => t, (p.writeShadow t).2) := by
  have shown : transports.table.get (transports.idOf t) (p.tenants systemTenantID) =
      find (p.tenants systemTenantID).transports t.id := rfl
  rw [StateRepo.writeShadow, lookAt, query_bind, exec_call, shown, find, writeShadow]
  cases stored : (p.tenants systemTenantID).transports[t.id]? with
  | none =>
      have named : (transports.shadow 0 t).id ≠ [] := named_of_platform platform
      simp only [Err.wrap, ne_eq, not_true_eq_false, ↓reduceIte, onTenant, invoke_bind, exec_call, act_create named]
      -- Nobody else can have created the row in between.
      obtain ⟨row, created⟩ : ∃ row, (p.rowCreate systemTenantID (transports.shadow 0 t)).1 = .ok row := by
        have kept : transportMeta.id.get (transports.shadow 0 t) ≠ [] := named
        have absent : (p.tenants systemTenantID).transports[transportMeta.id.get (transports.shadow 0 t)]? = none :=
          stored
        simp only [rowCreate, create, if_neg kept, absent]
        exact ⟨_, rfl⟩
      have same : { shadowTransport t with version := 0 } = transports.shadow 0 t := rfl
      simp only [same, created]
      rfl
  | some row =>
      have same : transports.shadow (transports.version t) t = shadowTransport t := rfl
      simp only [StateRepo.updateShadow, onTenant, invoke_bind, exec_call, act_update, same]
      cases (p.rowUpdate systemTenantID (shadowTransport t)).1 <;> rfl

/-- A write of a shared transport answers with the shadow row there and with the
caller's value here. -/
theorem transportUpdate_eq (configured : p.platformTransports = cat.transports) :
    (transports.update cat tenantID t).exec p = ((p.transportUpdate tenantID t).1.map fun row =>
      if isPlatformID t.id then t else row, (p.transportUpdate tenantID t).2) := by
  have listed : transports.virtual cat t.id = cat.transports.find? fun v => v.id = t.id := rfl
  have sameID : transports.idOf t = t.id := rfl
  have sameConfig : transports.sameConfig = sameTransportConfig := rfl
  rw [StateRepo.update, transportUpdate, configured, sameID, listed, sameConfig]
  cases platform : isPlatformID t.id with
  | false =>
      simp only [Bool.not_false, ↓reduceIte, Bool.false_eq_true, onTenant, invoke, exec_call, act_update, exec_done]
      cases (p.rowUpdate tenantID t).1 <;> rfl
  | true =>
      cases cat.transports.find? fun v : Transport => v.id = t.id with
      | none => rfl
      | some v =>
          simp only [Bool.not_true, Bool.false_eq_true, ↓reduceIte]
          split
          · rfl
          · exact writeShadow_eq platform

end

end Sendplane.Overlay
