import Sendplane.Bounce.Process

namespace Sendplane.Bounce

open Data Store Memstore Prog TenantStore Provider Processor

/-- What a call of an attempt can do: all but one of the rows are of the tenant itself. -/
inductive Effect (tenantID : Text) : (Provider → Provider) → Prop where
  | look : Effect tenantID id
  | settings (v : TenantSettings) :
      Effect tenantID fun p => ((Provider.forTenant tenantID).act (TenantStore.settingsCreate v) p).2
  | bounce (newID : Text) (ev : BounceEvent) :
      Effect tenantID fun p => ((Provider.forTenant tenantID).act (TenantStore.bounceCreate newID ev) p).2
  | mark (type : BounceType) (id : Text) (now : Time) :
      Effect tenantID fun p => ((Provider.forTenant tenantID).act (Processor.mark type id now) p).2
  | suppress (v : Suppression) :
      Effect tenantID fun p => ((Provider.forTenant tenantID).act (TenantStore.suppressionUpsert v) p).2
  | suppressPlatform (v : Suppression) :
      Effect tenantID fun p => ((Provider.forTenant systemTenantID).act (TenantStore.suppressionUpsert v) p).2
  | enqueue (newID : Nat → Text) (evs : List OutboxEvent) :
      Effect tenantID fun p => ((Provider.forTenant tenantID).act (TenantStore.outboxEnqueue newID evs) p).2

section

variable {proc : Processor} {tenantID : Text} {settings : TenantSettings} {out : Outcome} {msg : Message}
  {d : Delivery} {a : Attempt}

theorem record_makes {d : Option Delivery} (bounce : ∀ newID ev, fits .createBounce fun p =>
      ((forTenant tenantID).act (bounceCreate newID ev) p).2) :
    (proc.record tenantID settings out msg d a).Makes fits fun _ => True := by
  refine makes_invoke (bounce _ _) fun reply => ?_
  cases reply with
  | ok | error => trivial

variable {now : Time}

theorem suppressPlatform_makes (sender : fits .getSender id) (view : fits .platformView id)
    (upsert : ∀ v, fits .platformUpsert fun p => ((forTenant systemTenantID).act (suppressionUpsert v) p).2) :
    (proc.suppressPlatform tenantID d reason now).Makes fits fun _ => True := by
  unfold suppressPlatform
  split
  · trivial
  refine makes_query sender fun reply _ => ?_
  cases reply with
  | error e =>
      dsimp only
      split <;> trivial
  | ok snd =>
      dsimp only
      split
      · trivial
      refine makes_query view fun reply _ => ?_
      cases reply with
      | error e => trivial
      | ok =>
          refine makes_invoke (upsert _) fun reply => ?_
          cases reply with
          | error | ok => trivial

theorem suppress_makes (sender : fits .getSender id) (view : fits .platformView id)
    (own : ∀ v, fits .upsert fun p => ((forTenant tenantID).act (suppressionUpsert v) p).2)
    (platform : ∀ v, fits .platformUpsert fun p => ((forTenant systemTenantID).act (suppressionUpsert v) p).2) :
    (proc.suppress tenantID settings d reason out now).Makes fits fun _ => True := by
  have shared : (proc.suppressPlatform tenantID d reason now).Makes fits fun _ => True :=
    suppressPlatform_makes sender view platform
  unfold suppress
  split
  · trivial
  split
  · refine makes_invoke (own _) fun reply => ?_
    cases reply with
    | error e => trivial
    | ok => exact shared.bind fun _ _ => trivial
  · exact shared.bind fun _ _ => trivial

abbrev Makes {α : Type} (tenantID : Text) (program : Proc α) : Prop :=
  program.Makes (fun _ => Effect tenantID) fun _ => True

theorem transition_makes : Makes tenantID (proc.transition tenantID settings out d a) := by
  refine makes_invoke (.mark ..) fun reply => ?_
  cases reply with
  | error e => trivial
  | ok changed =>
      dsimp only
      split
      · trivial
      refine (suppress_makes .look .look .suppress .suppressPlatform).bind fun answer _ => ?_
      obtain ⟨out, error⟩ := answer
      cases error with
      | some e => trivial
      | none =>
          refine makes_invoke (.enqueue ..) fun reply => ?_
          cases reply with
          | error | ok => trivial

def afterRecord (proc : Processor) (tenantID : Text) (settings : TenantSettings) (d : Delivery) (a : Attempt) :
    Outcome × Option Err → Proc (Outcome × Option Err)
  | (out, some e) => return (out, some e)
  | (out, none) =>
      if out.parsed.type = .soft then return ({ out with skipped := some .softBounce }, none)
      else proc.transition tenantID settings out d a

theorem handleVerified_sent (sent : d.status = .sent) : proc.handleVerified tenantID settings out msg d a =
    proc.record tenantID settings out msg (some d) a >>= afterRecord proc tenantID settings d a := by
  rw [handleVerified, if_neg (not_not.mpr sent)]
  rfl

theorem afterRecord_makes : Makes tenantID (afterRecord proc tenantID settings d a answer) := by
  unfold afterRecord
  split
  · trivial
  split
  · trivial
  · exact transition_makes

theorem handleVerified_makes : Makes tenantID (proc.handleVerified tenantID settings out msg d a) := by
  by_cases sent : d.status = .sent
  · rw [handleVerified_sent sent]
    exact (record_makes .bounce).bind fun answer _ => afterRecord_makes
  · rw [handleVerified, if_pos sent]
    split_ifs
    · exact record_makes .bounce
    · trivial
    · trivial

theorem handleBounce_makes : Makes tenantID (proc.handleBounce tenantID settings out msg a) := by
  unfold handleBounce
  dsimp only
  split
  · exact record_makes .bounce
  split
  · trivial
  refine makes_query .look fun reply _ => ?_
  cases reply with
  | error e =>
      dsimp only
      split
      · exact record_makes .bounce
      · trivial
  | ok d =>
      dsimp only
      split
      · exact record_makes .bounce
      · exact handleVerified_makes

theorem loadSettings_makes (reads : fits .loadSettings id)
    (creates : ∀ v, fits .loadSettings fun p => ((forTenant tenantID).act (settingsCreate v) p).2) :
    ((loadTenantSettings Call.loadSettings tenantID key now).zoom (forTenant tenantID)).Makes fits fun _ => True := by
  have loads : (loadTenantSettings Call.loadSettings tenantID key now).Makes
      (fun tag effect => tag = .loadSettings ∧ (effect = id ∨ ∃ v, effect = fun s => (s.settingsCreate v).2))
      fun _ => True :=
    loadTenantSettings_makes ⟨rfl, .inl rfl⟩ fun v => ⟨rfl, .inr ⟨v, rfl⟩⟩
  refine loads.zoom ?_
  rintro tag effect ⟨rfl, rfl | ⟨v, rfl⟩⟩
  · have same : (fun p => (forTenant tenantID).set (id ((forTenant tenantID).get p)) p) = id :=
      funext (forTenant tenantID).set_get
    rw [same]
    exact reads
  · exact creates v

/-- The keys that an attempt reads the message with.  A tenant without a
settings row gets a fresh one. -/
def keysInUse (tenantID : Text) (a : Attempt) (s : TenantStore) : List SigningKey :=
  match s.settings with
  | some v => v.tracking.signingKeys
  | none => (defaultTenantSettings tenantID a.key a.now).tracking.signingKeys

theorem loadSettings_writes {trace : Trace Call}
    (ends : ((loadTenantSettings Call.loadSettings tenantID a.key a.now).zoom (forTenant tenantID)).Ends
      (fun _ => Outage) p trace reply after) :
    (∃ settings, after = p.put tenantID { p.tenants tenantID with settings }) ∧
      ((p.tenants tenantID).settings ≠ none → after = p) ∧
      ∀ v, reply = .ok v → v.tracking.signingKeys = keysInUse tenantID a (p.tenants tenantID) := by
  obtain ⟨inner, whole⟩ := ends_zoom ends
  simp only [forTenant_get, forTenant_set] at inner whole
  have unchanged (same : after.tenants tenantID = p.tenants tenantID) : after = p := by
    rw [whole, same]
    exact (forTenant tenantID).set_get p
  obtain ⟨_, ⟨e, rfl, same⟩ | ⟨v, rfl, stored, same⟩ | ⟨v, rfl, absent, created⟩⟩ := loadTenantSettings_ends inner
  · exact ⟨⟨_, by rw [whole, same]⟩, fun _ => unchanged same, by simp⟩
  · refine ⟨⟨_, by rw [whole, same]⟩, fun _ => unchanged same, fun other answered => ?_⟩
    cases answered
    rw [keysInUse, stored]
  · simp only [settingsCreate, absent, Prod.mk.injEq, Except.ok.injEq] at created
    obtain ⟨rfl, final⟩ := created
    refine ⟨⟨_, by rw [whole, ← final]⟩, fun present => absurd absent present, fun other answered => ?_⟩
    cases answered
    rw [keysInUse, absent]

def afterLoad (proc : Processor) (tenantID : Text) (msg : Message) (a : Attempt) :
    Except Err TenantSettings → Proc (Outcome × Option Err)
  | .error e => return ({}, some (within (text "bounce: tenant settings") e))
  | .ok settings =>
      match proc.parseWithKeys msg.raw settings.tracking.signingKeys with
      | .error _ => return ({ skipped := some .notABounce }, none)
      | .ok parsed =>
          if parsed.autoReply then return ({ parsed, skipped := some .autoReply }, none)
          else if !parsed.isBounce then return ({ parsed, skipped := some .notABounce }, none)
          else proc.handleBounce tenantID settings { parsed } msg a

theorem handle_eq : proc.handle tenantID msg a =
    (loadTenantSettings Call.loadSettings tenantID a.key a.now).zoom (forTenant tenantID) >>=
      afterLoad proc tenantID msg a := rfl

theorem afterLoad_makes : Makes tenantID (afterLoad proc tenantID msg a loaded) := by
  unfold afterLoad
  split
  · trivial
  split
  · trivial
  split_ifs
  · trivial
  · trivial
  · exact handleBounce_makes

theorem handle_makes : Makes tenantID (proc.handle tenantID msg a) := by
  exact (loadSettings_makes .look .settings).bind fun loaded _ => afterLoad_makes

end

variable {t : Text}

theorem forTenant_act {β : Type} (op : TenantStore → Except Err β × TenantStore) :
    ((forTenant tenantID).act op p).2.tenants other =
      if other = tenantID then (op (p.tenants tenantID)).2 else p.tenants other := by
  simp [Lens.act, put_get]

theorem Effect.keeps (fact : TenantStore → Prop) (made : Effect tenantID effect)
    (settings : ∀ v s, fact s → fact (s.settingsCreate v).2)
    (bounce : ∀ newID ev s, fact s → fact (s.bounceCreate newID ev).2)
    (mark : ∀ type id now s, fact s → fact (Processor.mark type id now s).2)
    (suppress : ∀ v s, fact s → fact (s.suppressionUpsert v).2)
    (enqueue : ∀ newID evs s, fact s → fact (s.outboxEnqueue newID evs).2)
    (holds : fact (p.tenants t)) : fact ((effect p).tenants t) := by
  have acts {β : Type} {other : Text} {op : TenantStore → Except Err β × TenantStore}
      (kept : ∀ s, fact s → fact (op s).2) : fact (((forTenant other).act op p).2.tenants t) := by
    rw [forTenant_act]
    split
    next same =>
      rw [← same]
      exact kept _ holds
    · exact holds
  cases made with
  | look => exact holds
  | settings v => exact acts (settings v)
  | bounce newID ev => exact acts (bounce newID ev)
  | mark type id now => exact acts (mark type id now)
  | suppress v | suppressPlatform v => exact acts (suppress v)
  | enqueue newID evs => exact acts (enqueue newID evs)

/-- The store of the tenant is as before. -/
def Untouched (t : Text) (before after : Provider) : Prop :=
  after.tenants t = before.tenants t

theorem Effect.elsewhere (made : Effect tenantID effect) (foreign : t ≠ tenantID) (tenant : t ≠ systemTenantID)
    (p : Provider) : Untouched t p (effect p) := by
  cases made with
  | look => rfl
  | suppressPlatform v => rw [Untouched, forTenant_act, if_neg tenant]
  | settings | bounce | mark | suppress | enqueue => rw [Untouched, forTenant_act, if_neg foreign]

variable {α : Type}

theorem ends_elsewhere {trace : Trace Call} (makes : Makes tenantID program) (foreign : t ≠ tenantID)
    (tenant : t ≠ systemTenantID) (ends : program.Ends fault p trace value after) : Untouched t p after := by
  have keeps := makes.widen fun _ _ made => made.elsewhere foreign tenant
  obtain ⟨plan, _, ran⟩ := run_of_ends ends
  have untouched := keeps.run_keeps (fun _ => rfl) (fun _ _ _ first second => Eq.trans second first) plan p
  rw [ran] at untouched
  exact untouched

def Stays (t : Text) (present : TenantStore → Prop) (before after : Provider) : Prop :=
  present (before.tenants t) → present (after.tenants t)

def HasSettings (s : TenantStore) : Prop :=
  s.settings ≠ none

def HasBounce (id : Text) (s : TenantStore) : Prop :=
  s.bounces[id]? ≠ none

theorem mark_writes (id : Text) (now : Time) : ∃ repo, (mark type id now s).2 = { s with toDeliveryRepo := repo } := by
  unfold mark
  split <;> exact ⟨_, rfl⟩

theorem suppressionUpsert_writes (s : TenantStore) :
    ∃ suppressions, (s.suppressionUpsert v).2 = { s with suppressions } := by
  unfold suppressionUpsert
  split <;> exact ⟨_, rfl⟩

theorem hasBounce_create {id : Text} (present : HasBounce id s) : HasBounce id (s.bounceCreate newID ev).2 := by
  rcases bounceCreate_writes s with same | ⟨other, row, _, _, same⟩
  · rw [same]
    exact present
  · rw [same, HasBounce, Table.get_insert]
    split
    · simp
    · exact present

theorem settingsCreate_writes (s : TenantStore) :
    ∃ settings, (s.settingsCreate v).2 = { s with settings } ∧ (s.settings ≠ none → settings = s.settings) := by
  cases stored : s.settings with
  | none =>
      simp only [settingsCreate, stored]
      exact ⟨_, rfl, by simp⟩
  | some row =>
      simp only [settingsCreate, stored]
      exact ⟨_, by rw [← stored], fun _ => rfl⟩

theorem run_stays (makes : Makes tenantID program) (settings : ∀ v s, present s → present (s.settingsCreate v).2)
    (bounce : ∀ newID ev s, present s → present (s.bounceCreate newID ev).2)
    (reads : ∀ s other : TenantStore, other.settings = s.settings → other.bounces = s.bounces → present s → present other) :
    Stays t present p (program.run plan p).2 := by
  have mark (type id now) (s : TenantStore) (held : present s) : present (mark type id now s).2 := by
    obtain ⟨repo, same⟩ := mark_writes id now
    exact reads s _ (by rw [same]) (by rw [same]) held
  have suppress (v) (s : TenantStore) (held : present s) : present (s.suppressionUpsert v).2 := by
    obtain ⟨suppressions, same⟩ := suppressionUpsert_writes s
    exact reads s _ (by rw [same]) (by rw [same]) held
  have keeps : program.Makes (fun _ effect => ∀ p, Stays t present p (effect p)) fun _ => True :=
    makes.widen fun _ _ made _ => made.keeps present settings bounce mark suppress fun _ _ s => reads s _ rfl rfl
  exact keeps.run_keeps (fun _ => id) (fun _ _ _ first second => second ∘ first) plan p

theorem run_hasSettings (makes : Makes tenantID program) : Stays t HasSettings p (program.run plan p).2 := by
  refine run_stays makes ?_ (fun _ _ _ present => present) (fun _ _ same _ present => by rwa [HasSettings, same])
  intro v s present
  obtain ⟨settings, same, kept⟩ := settingsCreate_writes s
  rw [same, kept present]
  exact present

theorem run_hasBounce {id : Text} (makes : Makes tenantID program) :
    Stays t (HasBounce id) p (program.run plan p).2 := by
  refine run_stays makes ?_ (fun newID ev _ => hasBounce_create)
    (fun _ _ _ same present => by rwa [HasBounce, same])
  intro v s present
  obtain ⟨settings, same, _⟩ := settingsCreate_writes s
  rw [same]
  exact present

end Sendplane.Bounce
