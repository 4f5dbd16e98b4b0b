import Sendplane.Data.Faults
import Sendplane.Memstore.Tenant

namespace Sendplane.Memstore

open Data Store Prog TenantStore

namespace TenantStore

def settingsGet (s : TenantStore) : Except Err TenantSettings :=
  match s.settings with
  | none => .error (.wrap .notFound (text "tenant settings"))
  | some settings => .ok settings

def settingsCreate (v : TenantSettings) (s : TenantStore) : Except Err TenantSettings × TenantStore :=
  match s.settings with
  | some _ => (.error (.wrap .conflict (text "tenant settings already exist")), s)
  | none =>
      let v := { v with
        tenantID := s.tenant
        createdAt := if v.createdAt = 0 then s.now else v.createdAt
        updatedAt := s.now
        version := 1 }
      let stored := { v with
        createdAt := truncateTime v.createdAt, updatedAt := truncateTime v.updatedAt }
      (.ok v, { s with settings := some stored })

theorem settingsCreate_absent {s : TenantStore} (v : TenantSettings) (absent : s.settings = none) :
    ∃ row stored, s.settingsCreate v = (.ok row, { s with settings := some stored }) ∧
      row.suppressionEnabled = v.suppressionEnabled ∧
      stored.suppressionEnabled = v.suppressionEnabled := by
  simp only [settingsCreate, absent]
  exact ⟨_, _, rfl, rfl, rfl⟩

end TenantStore

/-- A failure of the store itself, none of the answers callers branch on. -/
def Outage (e : Err) : Prop :=
  e.kind = .other

theorem Outage.ne (outage : Outage e) (sentinel : kind ≠ .other) : e.kind ≠ kind := by
  rw [outage]
  exact sentinel.symm

/-- Reads the settings, creating the default row on first access.  Whoever
loses the race to create it reads what the winner wrote. -/
def loadTenantSettings {τ : Type} (tag : τ) (tenantID : Text) (key : SigningKey) (now : Time) :
    Prog τ TenantStore Err (Except Err TenantSettings) := do
  match ← Prog.query tag TenantStore.settingsGet with
  | .ok settings => return .ok settings
  | .error e =>
      if e.kind ≠ .notFound then return .error e
      else
        let initial := defaultTenantSettings tenantID key now
        match ← Prog.invoke tag (TenantStore.settingsCreate initial) with
        | .ok settings => return .ok settings
        | .error e =>
            if e.kind ≠ .conflict then return .error e
            else Prog.query tag TenantStore.settingsGet

variable {τ : Type} {tenantID : Text} {key : SigningKey} {now : Time}

theorem loadTenantSettings_makes (reads : fits tag id) (creates : ∀ v, fits tag fun s => (s.settingsCreate v).2) :
    (loadTenantSettings tag tenantID key now).Makes fits fun _ => True := by
  apply makes_query reads
  intro reply _
  cases reply with
  | ok settings => trivial
  | error e =>
      dsimp only
      split
      · trivial
      apply makes_invoke (creates _)
      intro reply
      cases reply with
      | ok settings => trivial
      | error e =>
          dsimp only
          split
          · trivial
          · exact ⟨reads, fun _ => trivial, fun _ => trivial⟩

theorem loadTenantSettings_ends {trace : Trace τ}
    (ends : (loadTenantSettings tag tenantID key now).Ends (fun _ => Outage) s trace reply after) :
    (∀ call ∈ trace, call.1 = tag) ∧ ((∃ e, reply = .error e ∧ after = s) ∨
        (∃ v, reply = .ok v ∧ s.settings = some v ∧ after = s) ∨ ∃ v, reply = .ok v ∧ s.settings = none ∧
          s.settingsCreate (defaultTenantSettings tenantID key now) = (.ok v, after)) := by
  obtain ⟨later, ⟨rfl, answered⟩ | ⟨rfl, failure, outage, failed⟩⟩ := ends_query ends
  · cases stored : s.settings with
    | some v =>
        simp only [settingsGet, stored] at answered
        obtain ⟨rfl, rfl, rfl⟩ := answered
        exact ⟨by simp, .inr (.inl ⟨v, rfl, rfl, rfl⟩)⟩
    | none =>
        obtain ⟨row, _, created, -⟩ := settingsCreate_absent (defaultTenantSettings tenantID key now) stored
        simp only [settingsGet, stored, Err.wrap, ne_eq, not_true_eq_false] at answered
        obtain ⟨later, ⟨rfl, returned⟩ | ⟨rfl, failure, outage, failed⟩⟩ := ends_invoke answered
        · simp only [created] at returned
          obtain ⟨rfl, rfl, rfl⟩ := returned
          exact ⟨by simp, .inr (.inr ⟨row, rfl, rfl, created⟩)⟩
        · have refused : failure.kind ≠ .conflict := outage.ne (by decide)
          simp only [refused, not_false_eq_true] at failed
          obtain ⟨rfl, rfl, rfl⟩ := failed
          exact ⟨by simp, .inl ⟨failure, rfl, rfl⟩⟩
  · have refused : failure.kind ≠ .notFound := outage.ne (by decide)
    dsimp only at failed
    rw [if_pos refused] at failed
    obtain ⟨rfl, rfl, rfl⟩ := failed
    exact ⟨by simp, .inl ⟨failure, rfl, rfl⟩⟩

section

variable {τ : Type} (tag : τ) (tenantID : Text) (key : SigningKey) (now : Time)

theorem loadTenantSettings_run_stored (outages : ∀ n, ∀ e ∈ plan n, Outage e) (stored : s.settings = some v) :
    (loadTenantSettings tag tenantID key now).run plan s =
      (match plan 0 with | none => .ok v | some e => .error e, s) := by
  rw [loadTenantSettings, query_bind, run_call]
  cases planned : plan 0 with
  | none => simp [settingsGet, stored, pure_eq]
  | some e =>
      have refused : e.kind ≠ .notFound := (outages 0 e planned).ne (by decide)
      simp [refused, pure_eq]

theorem loadTenantSettings_run_absent (outages : ∀ n, ∀ e ∈ plan n, Outage e) (absent : s.settings = none) :
    (plan 0 = none ∧ plan 1 = none ∧ ∃ v stored, (loadTenantSettings tag tenantID key now).run plan s =
      (.ok v, { s with settings := some stored })) ∨
    ((plan 0 ≠ none ∨ plan 1 ≠ none) ∧ ∃ e, (loadTenantSettings tag tenantID key now).run plan s = (.error e, s)) := by
  obtain ⟨row, stored, created, -⟩ := settingsCreate_absent (defaultTenantSettings tenantID key now) absent
  rw [loadTenantSettings, query_bind, run_call]
  cases first : plan 0 with
  | some e =>
      have refused : e.kind ≠ .notFound := (outages 0 e first).ne (by decide)
      simp only [refused, ne_eq, not_false_eq_true, pure_eq]
      exact .inr ⟨.inl (by simp), e, rfl⟩
  | none =>
      simp only [settingsGet, absent, Err.wrap, ne_eq, not_true_eq_false, ↓reduceIte, invoke_bind, run_call]
      cases second : plan 1 with
      | none =>
          simp only [created, pure_eq]
          exact .inl ⟨trivial, trivial, row, stored, rfl⟩
      | some e =>
          have refused : e.kind ≠ .conflict := (outages 1 e second).ne (by decide)
          simp only [refused, not_false_eq_true, pure_eq]
          exact .inr ⟨.inr (by simp), e, rfl⟩

end

end Sendplane.Memstore
