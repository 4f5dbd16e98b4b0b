import Sendplane.Overlay.Basic

namespace Sendplane.Overlay

open Data Store Memstore Prog TenantStore

/-- The settings that the catalog may supply. -/
inductive Setting where
  | trackingDomain | unsubscribeURLTemplate
deriving DecidableEq

namespace Setting

def all : List Setting :=
  [.trackingDomain, .unsubscribeURLTemplate]

def name : Setting → Text
  | .trackingDomain => settingTrackingDomain
  | .unsubscribeURLTemplate => settingUnsubscribeURLTemplate

def value : Setting → TenantSettings → Text
  | .trackingDomain, v => v.tracking.domain
  | .unsubscribeURLTemplate, v => v.unsubscribeURLTemplate

def write (text : Text) : Setting → TenantSettings → TenantSettings
  | .trackingDomain, v => { v with tracking := { v.tracking with domain := text } }
  | .unsubscribeURLTemplate, v => { v with unsubscribeURLTemplate := text }

def fallback : Setting → Catalog → Text
  | .trackingDomain, cat => cat.trackingDomain
  | .unsubscribeURLTemplate, cat => cat.unsubscribeURLTemplate

variable (field other : Setting) (cat : Catalog) (v : TenantSettings) (text : Text)

def fill : TenantSettings :=
  if field.value v = [] ∧ field.fallback cat ≠ [] then
    { field.write (field.fallback cat) v with platformDefaults := v.platformDefaults ++ [field.name] }
  else v

def clear : TenantSettings :=
  if v.fromPlatform field.name ∧ field.value v = field.fallback cat then field.write [] v else v

theorem value_write : field.value (other.write text v) = if field = other then text else field.value v := by
  cases field <;> cases other <;> rfl

theorem write_marks : (field.write text v).platformDefaults = v.platformDefaults := by
  cases field <;> rfl

theorem value_marks (marks : List Text) : field.value { v with platformDefaults := marks } = field.value v := by
  cases field <;> rfl

theorem fill_value : field.value (other.fill cat v) =
    if field = other ∧ field.value v = [] then field.fallback cat else field.value v := by
  rw [fill]
  by_cases same : field = other
  · subst same
    by_cases empty : field.value v = []
    · by_cases supplied : field.fallback cat = []
      · simp [supplied]
      · simp [empty, supplied, value_marks, value_write]
    · simp [empty]
  · simp only [same, false_and, ↓reduceIte]
    split
    · rw [value_marks, value_write, if_neg same]
    · rfl

theorem fill_marks : (field.fill cat v).platformDefaults =
    v.platformDefaults ++ if field.value v = [] ∧ field.fallback cat ≠ [] then [field.name] else [] := by
  rw [fill]
  split <;> simp

theorem clear_value : field.value (other.clear cat v) =
    if field = other ∧ v.fromPlatform field.name ∧ field.value v = field.fallback cat then [] else field.value v := by
  rw [clear]
  by_cases same : field = other
  · subst same
    simp only [true_and]
    split
    · rw [value_write, if_pos rfl]
    · rfl
  · simp only [same, false_and, ↓reduceIte]
    split
    · rw [value_write, if_neg same]
    · rfl

theorem clear_marks : (field.clear cat v).platformDefaults = v.platformDefaults := by
  rw [clear]
  split
  · exact write_marks field v []
  · rfl

end Setting

def applyDefaults (cat : Catalog) (v : TenantSettings) : TenantSettings :=
  Setting.fill .unsubscribeURLTemplate cat (Setting.fill .trackingDomain cat { v with platformDefaults := [] })

def strip (cat : Catalog) (v : TenantSettings) : TenantSettings :=
  { Setting.clear .unsubscribeURLTemplate cat (Setting.clear .trackingDomain cat v) with platformDefaults := [] }

/-- Without a default to supply, the settings of the backing store are served as
they are. -/
def Catalog.plain (cat : Catalog) : Bool :=
  cat.trackingDomain = [] && cat.unsubscribeURLTemplate = []

namespace PlatformSettings

variable (cat : Catalog) (tenantID : Text)

def get : Op (Except Err TenantSettings) := do
  if cat.plain then lookAt tenantID TenantStore.settingsGet
  else match ← lookAt tenantID TenantStore.settingsGet with
    | .error e => return .error e
    | .ok v => return .ok (applyDefaults cat v)

def create (v : TenantSettings) : Op (Except Err TenantSettings) := do
  if cat.plain then onTenant tenantID (TenantStore.settingsCreate v)
  else match ← onTenant tenantID (TenantStore.settingsCreate (strip cat v)) with
    | .error e => return .error e
    | .ok v => return .ok (applyDefaults cat v)

def update (v : TenantSettings) : Op (Except Err TenantSettings) := do
  if cat.plain then onTenant tenantID (TenantStore.settingsUpdate v)
  else match ← onTenant tenantID (TenantStore.settingsUpdate (strip cat v)) with
    | .error e => return .error e
    | .ok v => return .ok (applyDefaults cat v)

end PlatformSettings

section

variable (cat : Catalog) (field : Setting) (v : TenantSettings)

def defaulted : List Text :=
  Setting.all.flatMap fun field => if field.value v = [] ∧ field.fallback cat ≠ [] then [field.name] else []

theorem applyDefaults_value :
    field.value (applyDefaults cat v) = if field.value v = [] then field.fallback cat else field.value v := by
  rw [applyDefaults, Setting.fill_value, Setting.fill_value, Setting.value_marks]
  cases field <;> simp

theorem applyDefaults_marks : (applyDefaults cat v).platformDefaults = defaulted cat v := by
  rw [applyDefaults, Setting.fill_marks, Setting.fill_marks, Setting.fill_value]
  simp [Setting.value_marks, defaulted, Setting.all]

theorem strip_value : field.value (strip cat v) =
    if v.fromPlatform field.name ∧ field.value v = field.fallback cat then [] else field.value v := by
  have marks : ∀ name, (Setting.clear .trackingDomain cat v).fromPlatform name = v.fromPlatform name := by
    intro name
    rw [TenantSettings.fromPlatform, Setting.clear_marks, TenantSettings.fromPlatform]
  rw [strip, Setting.value_marks, Setting.clear_value, Setting.clear_value, marks]
  cases field <;> simp

theorem mem_defaulted : field.name ∈ defaulted cat v ↔ field.value v = [] ∧ field.fallback cat ≠ [] := by
  have names (other : Setting) : field.name = other.name ↔ field = other := by
    cases field <;> cases other <;> decide
  simp only [defaulted, List.mem_flatMap, List.mem_ite_nil_right, List.mem_singleton, names]
  constructor
  · rintro ⟨other, -, supplied, rfl⟩
    exact supplied
  · intro supplied
    exact ⟨field, by cases field <;> simp [Setting.all], supplied, rfl⟩

def effective : TenantSettings :=
  if cat.plain then v else applyDefaults cat v

def ownPart : TenantSettings :=
  if cat.plain then v else strip cat v

variable {cat} in
theorem fallback_plain (plain : cat.plain = true) : field.fallback cat = [] := by
  simp only [Catalog.plain, Bool.and_eq_true, decide_eq_true_eq] at plain
  cases field with
  | trackingDomain => exact plain.1
  | unsubscribeURLTemplate => exact plain.2

theorem effective_value :
    field.value (effective cat v) = if field.value v = [] then field.fallback cat else field.value v := by
  rw [effective]
  split
  next plain =>
    rw [fallback_plain field plain]
    split
    · assumption
    · rfl
  · exact applyDefaults_value cat field v

theorem ownPart_value : field.value (ownPart cat v) =
    if v.fromPlatform field.name ∧ field.value v = field.fallback cat then [] else field.value v := by
  rw [ownPart]
  split
  next plain =>
    rw [fallback_plain field plain]
    split
    next same => exact same.2
    · rfl
  · exact strip_value cat field v

theorem defaulted_plain (plain : cat.plain = true) : defaulted cat v = [] := by
  simp [defaulted, fallback_plain _ plain]

theorem effective_marks_iff :
    (effective cat v).platformDefaults = defaulted cat v ↔ (cat.plain = true → v.platformDefaults = []) := by
  rw [effective]
  split
  next plain => simp [defaulted_plain cat v plain, plain]
  next supplies => simp [applyDefaults_marks, supplies]

/-- A value that was read through one catalog and is written through another
leaves the field as it is stored exactly if no default was filled in or the
other catalog has the same one. -/
theorem ownPart_effective_iff (unmarked : cat.plain = true → v.platformDefaults = []) :
    field.value (ownPart later (effective cat v)) = field.value v ↔
      (field.value v ≠ [] ∨ field.fallback cat = [] ∨ field.fallback cat = field.fallback later) := by
  have marked : (effective cat v).fromPlatform field.name = true ↔ field.value v = [] ∧ field.fallback cat ≠ [] := by
    rw [TenantSettings.fromPlatform, (effective_marks_iff cat v).mpr unmarked, List.contains_iff_mem, mem_defaulted]
  simp only [ownPart_value, marked, effective_value]
  by_cases empty : field.value v = []
  · simp only [empty, not_true_eq_false, ne_eq]
    by_cases supplied : field.fallback cat = []
    · simp [supplied]
    · by_cases same : field.fallback cat = field.fallback later
      · simp [same]
      · simp [same]
  · simp [empty]

end

section

variable (cat : Catalog) {v row : TenantSettings}

theorem settings_read (stored : (p.tenants t).settings = some row) :
    ((PlatformSettings.get cat t).exec p).1 = .ok (effective cat row) := by
  have found : (p.tenants t).settingsGet = .ok row := by rw [settingsGet, stored]
  rw [PlatformSettings.get, effective]
  split
  · exact found
  · rw [lookAt, query_bind, exec_call, found]
    rfl

theorem settings_unread (absent : (p.tenants t).settings = none) :
    ((PlatformSettings.get cat t).exec p).1 = .error (.wrap .notFound (text "tenant settings")) := by
  have missing : (p.tenants t).settingsGet = .error (.wrap .notFound (text "tenant settings")) := by
    rw [settingsGet, absent]
  rw [PlatformSettings.get]
  split
  · exact missing
  · rw [lookAt, query_bind, exec_call, missing]
    rfl

theorem onTenant_exec {α β : Type} {f : TenantStore → Except Err α × TenantStore} {k : Except Err α → Op β}
    (answers : ∀ reply p, ((k reply).exec p).2 = p) :
    ((onTenant t f >>= k).exec p).2 = p.put t (f (p.tenants t)).2 := by
  rw [onTenant, invoke_bind, exec_call, answers]
  rfl

theorem update_exec :
    ((PlatformSettings.update cat t v).exec p).2 = p.put t ((p.tenants t).settingsUpdate (ownPart cat v)).2 := by
  rw [PlatformSettings.update, ownPart]
  split
  · rfl
  · exact onTenant_exec fun reply p => by cases reply <;> rfl

theorem create_exec :
    ((PlatformSettings.create cat t v).exec p).2 = p.put t ((p.tenants t).settingsCreate (ownPart cat v)).2 := by
  rw [PlatformSettings.create, ownPart]
  split
  · rfl
  · exact onTenant_exec fun reply p => by cases reply <;> rfl

/-- A row that carries what a value has of the two settings. -/
structure Carries (v row : TenantSettings) : Prop where
  values : ∀ field : Setting, field.value row = field.value v
  marks : row.platformDefaults = v.platformDefaults

theorem settingsUpdate_carries {s : TenantStore} (stored : s.settings = some row) (current : row.version = v.version) :
    ∃ written, (s.settingsUpdate v).2.settings = some written ∧ Carries v written := by
  simp only [settingsUpdate, stored, current, ne_eq, not_true_eq_false]
  exact ⟨_, rfl, fun field => by cases field <;> rfl, rfl⟩

theorem settingsUpdate_cases (s : TenantStore) :
    (s.settingsUpdate v).2 = s ∨ ∃ written, (s.settingsUpdate v).2.settings = some written ∧ Carries v written := by
  cases stored : s.settings with
  | none => exact .inl (by simp [settingsUpdate, stored])
  | some row =>
      by_cases current : row.version = v.version
      · exact .inr (settingsUpdate_carries stored current)
      · exact .inl (by simp [settingsUpdate, stored, current])

theorem settingsCreate_cases (s : TenantStore) :
    (s.settingsCreate v).2 = s ∨ ∃ written, (s.settingsCreate v).2.settings = some written ∧ Carries v written := by
  cases stored : s.settings with
  | some row => exact .inl (by simp [settingsCreate, stored])
  | none =>
      right
      simp only [settingsCreate, stored]
      exact ⟨_, rfl, fun field => by cases field <;> rfl, rfl⟩

end

inductive Write where
  | create (cat : Catalog) (v : TenantSettings)
  | update (cat : Catalog) (v : TenantSettings)

namespace Write

def catalog : Write → Catalog
  | create cat _ | update cat _ => cat

def value : Write → TenantSettings
  | create _ v | update _ v => v

def op (t : Text) : Write → Op (Except Err TenantSettings)
  | create cat v => PlatformSettings.create cat t v
  | update cat v => PlatformSettings.update cat t v

/-- No marks are handed to a view that does not take them out. -/
def Clean (w : Write) : Prop :=
  w.catalog.plain = true → w.value.platformDefaults = []

/-- The caller leaves the field empty, or as the view has filled it. -/
def Defers (field : Setting) (w : Write) : Prop :=
  field.value w.value = [] ∨ (w.value.fromPlatform field.name = true ∧ field.value w.value = field.fallback w.catalog)

theorem op_cases (w : Write) : (((w.op t).exec p).2.tenants t).settings = (p.tenants t).settings ∨
      ∃ written, (((w.op t).exec p).2.tenants t).settings = some written ∧
        Carries (ownPart w.catalog w.value) written := by
  cases w with
  | create cat v =>
      rw [op, create_exec, Provider.put_same]
      exact (settingsCreate_cases ..).imp_left (congrArg settings)
  | update cat v =>
      rw [op, update_exec, Provider.put_same]
      exact (settingsUpdate_cases ..).imp_left (congrArg settings)

def run (t : Text) (writes : List Write) (p : Provider) : Provider :=
  writes.foldl (fun p w => ((w.op t).exec p).2) p

theorem run_keeps {fact : TenantSettings → Prop} (start : ∀ row ∈ (p.tenants t).settings, fact row)
    (writing : ∀ w ∈ writes, ∀ row, Carries (ownPart w.catalog w.value) row → fact row) :
    ∀ row ∈ ((run t writes p).tenants t).settings, fact row := by
  induction writes generalizing p with
  | nil => exact start
  | cons w rest ih =>
      refine ih ?_ fun later listed => writing later (List.mem_cons_of_mem _ listed)
      obtain same | ⟨written, stored, carries⟩ := op_cases w
      · rw [same]
        exact start
      · rw [stored]
        intro row found
        cases found
        exact writing w List.mem_cons_self _ carries

theorem run_unmarked (start : ∀ row ∈ (p.tenants t).settings, row.platformDefaults = [])
    (clean : ∀ w ∈ writes, w.Clean) : ∀ row ∈ ((run t writes p).tenants t).settings, row.platformDefaults = [] := by
  refine run_keeps start fun w listed row carries => ?_
  rw [carries.marks, ownPart]
  split
  next plain => exact clean w listed plain
  · rfl

theorem run_unset (start : ∀ row ∈ (p.tenants t).settings, field.value row = [])
    (defers : ∀ w ∈ writes, w.Defers field) : ∀ row ∈ ((run t writes p).tenants t).settings, field.value row = [] := by
  refine run_keeps start fun w listed row carries => ?_
  rw [carries.values, ownPart_value]
  split
  · rfl
  next kept => exact (defers w listed).resolve_right kept

end Write

/-- Reading through one catalog and writing through another. -/
structure Lawful (cat later : Catalog) (t : Text) (row : TenantSettings) (p : Provider) : Prop where
  reads : ∃ v, ((PlatformSettings.get cat t).exec p).1 = .ok v ∧
    (∀ field : Setting, field.value v = if field.value row = [] then field.fallback cat else field.value row) ∧
    v.platformDefaults = defaulted cat row
  writesBack : ∀ v, ((PlatformSettings.get cat t).exec p).1 = .ok v →
    ∃ written, (((PlatformSettings.update later t v).exec p).2.tenants t).settings = some written ∧
      ∀ field : Setting, field.value written = field.value row
  sets : ∀ (field : Setting) (v : TenantSettings), v.version = row.version → field.value v ≠ field.fallback later →
    ∃ written, (((PlatformSettings.update later t v).exec p).2.tenants t).settings = some written ∧
      field.value written = field.value v

section

variable {cat later : Catalog} {t : Text} {p : Provider} {row : TenantSettings}

theorem ownPart_version : (ownPart cat v).version = v.version := by
  have write (field : Setting) (text : Text) (v : TenantSettings) : (field.write text v).version = v.version := by
    cases field <;> rfl
  have clear (field : Setting) (v : TenantSettings) : (field.clear cat v).version = v.version := by
    rw [Setting.clear]
    split
    · exact write field [] v
    · rfl
  rw [ownPart]
  split
  · rfl
  · rw [strip, clear, clear]

theorem effective_version : (effective cat v).version = v.version := by
  have fill (field : Setting) (v : TenantSettings) : (field.fill cat v).version = v.version := by
    rw [Setting.fill]
    split
    · cases field <;> rfl
    · rfl
  rw [effective]
  split
  · rfl
  · rw [applyDefaults, fill, fill]

theorem update_stores (stored : (p.tenants t).settings = some row) (current : v.version = row.version) :
    ∃ written, (((PlatformSettings.update cat t v).exec p).2.tenants t).settings = some written ∧
      Carries (ownPart cat v) written := by
  rw [update_exec, Provider.put_same]
  exact settingsUpdate_carries stored (by rw [ownPart_version, current])

/-- The view keeps its laws exactly if the row has no marks that it would pass
on and no default that it filled in has changed when it is written back. -/
theorem lawful_of_row (stored : (p.tenants t).settings = some row) :
    Lawful cat later t row p ↔ (cat.plain = true → row.platformDefaults = []) ∧
        ∀ field : Setting, field.value row ≠ [] ∨ field.fallback cat = [] ∨
          field.fallback cat = field.fallback later := by
  have read := settings_read cat stored
  obtain ⟨back, wrote, carries⟩ := update_stores stored effective_version
  constructor
  · rintro ⟨⟨v, got, -, marks⟩, writesBack, -⟩
    rw [read, Except.ok.injEq] at got
    subst got
    have unmarked := (effective_marks_iff cat row).mp marks
    obtain ⟨written, again, same⟩ := writesBack _ read
    rw [wrote, Option.some.injEq] at again
    subst again
    refine ⟨unmarked, fun field => ?_⟩
    rw [← ownPart_effective_iff cat field row unmarked, ← carries.values]
    exact same field
  · rintro ⟨unmarked, settled⟩
    refine ⟨⟨_, read, fun field => effective_value cat field row, (effective_marks_iff cat row).mpr unmarked⟩,
      fun v got => ?_, fun field v current own => ?_⟩
    · rw [read, Except.ok.injEq] at got
      subst got
      refine ⟨back, wrote, fun field => ?_⟩
      rw [carries.values]
      exact (ownPart_effective_iff cat field row unmarked).mpr (settled field)
    · obtain ⟨written, kept, carried⟩ := update_stores stored current
      refine ⟨written, kept, ?_⟩
      rw [carried.values, ownPart_value, if_neg fun filled => own filled.2]

/-- The laws hold of a row exactly under that condition, and in every state that is
reached without handing marks to a view that keeps them; a tenant that leaves a
field to the platform sees the default of whatever catalog there is. -/
theorem settings_lawful_iff (cat later : Catalog) (t : Text) (p : Provider) (row : TenantSettings)
    (stored : (p.tenants t).settings = some row) :
    (Lawful cat later t row p ↔ (cat.plain = true → row.platformDefaults = []) ∧
        ∀ field : Setting, field.value row ≠ [] ∨ field.fallback cat = [] ∨
          field.fallback cat = field.fallback later) ∧ ∀ writes : List Write,
        (row.platformDefaults = [] → (∀ w ∈ writes, w.Clean) → ∀ after,
          ((Write.run t writes p).tenants t).settings = some after → Lawful cat cat t after (Write.run t writes p)) ∧
        ∀ field : Setting, field.value row = [] → (∀ w ∈ writes, w.Defers field) → ∀ v,
          ((PlatformSettings.get later t).exec (Write.run t writes p)).1 = .ok v →
          field.value v = field.fallback later := by
  refine ⟨lawful_of_row stored, fun writes => ⟨fun unmarked clean after reached => ?_, fun field unset defers v got => ?_⟩⟩
  · have start : ∀ row ∈ (p.tenants t).settings, row.platformDefaults = [] := by
      intro row found
      cases stored.symm.trans found
      exact unmarked
    exact (lawful_of_row reached).mpr
      ⟨fun _ => Write.run_unmarked start clean after reached, fun _ => .inr (.inr rfl)⟩
  · have start : ∀ row ∈ (p.tenants t).settings, field.value row = [] := by
      intro row found
      cases stored.symm.trans found
      exact unset
    cases reached : ((Write.run t writes p).tenants t).settings with
    | none =>
        rw [settings_unread later reached] at got
        cases got
    | some after =>
        rw [settings_read later reached, Except.ok.injEq] at got
        subst got
        rw [effective_value, if_pos (Write.run_unset start defers after reached)]

end

def oldCatalog : Catalog where
  trackingDomain := text "a.example"

def newCatalog : Catalog where
  trackingDomain := text "b.example"

def bareProvider : Provider where
  tenants t := { tenant := t, settings := some { tenantID := t, version := 1 } }

def acme : Text := text "acme"

theorem settings_lawful_bare : Lawful oldCatalog oldCatalog acme { tenantID := acme, version := 1 } bareProvider :=
  (settings_lawful_iff oldCatalog oldCatalog acme bareProvider _ rfl).1.mpr
    ⟨fun _ => rfl, fun _ => .inr (.inr rfl)⟩

/-- Written back unmodified after the default has changed, the old one becomes
the tenant's own; and the marks of a value stay in a store without defaults. -/
theorem old_default_adopted :
    ∃ v, ((PlatformSettings.get oldCatalog acme).exec bareProvider).1 = .ok v ∧ v.tracking.domain = text "a.example" ∧
      (((PlatformSettings.update newCatalog acme v).exec bareProvider).2.tenants acme).settings.map
        (fun row => row.tracking.domain) = some (text "a.example") ∧ (((PlatformSettings.get newCatalog acme).exec
        ((PlatformSettings.update newCatalog acme v).exec bareProvider).2).1.toOption.map
          fun v => v.tracking.domain) = some (text "a.example") ∧ (((PlatformSettings.get {} acme).exec
        ((PlatformSettings.update {} acme v).exec bareProvider).2).1.toOption.map
          fun v => v.platformDefaults) = some [settingTrackingDomain] :=
  ⟨_, rfl, rfl, by decide +kernel, by decide +kernel, by decide +kernel⟩

end Sendplane.Overlay
