import Sendplane.Api.Tracking

namespace Sendplane.Api

open Data Store Memstore Sendplane.Tracking Prog

def storedKeys (s : ServerState) (tenantID : Text) : List SigningKey :=
  match (s.provider.tenants tenantID).settings with
  | none => []
  | some settings => settings.tracking.signingKeys

/-- No signing key that is stored for the tenant the token names accepts it. -/
def Rejected (srv : Server) (s : ServerState) (token dest : Text) : Prop :=
  ∀ tenantID, tenantOf token = .ok tenantID → ∃ e, srv.signer.verifyDest (storedKeys s tenantID) token dest = .error e

/-- The request does not get to create settings: the token names no tenant, the
tenant has settings, or one of the first three calls fails. -/
def Harmless (s : ServerState) (token : Text) (plan : Nat → Option Err) : Prop :=
  ∀ tenantID, tenantOf token = .ok tenantID →
    (s.provider.tenants tenantID).settings ≠ none ∨ plan 0 ≠ none ∨ plan 1 ≠ none ∨ plan 2 ≠ none

/-- No tenant loses its settings row. -/
def SettingsKept (before after : ServerState) : Prop :=
  ∀ tenantID, (before.provider.tenants tenantID).settings ≠ none → (after.provider.tenants tenantID).settings ≠ none

section

variable {srv : Server} {s : ServerState} {req : TrackRequest} {plan : Nat → Option Err}
  {settings : TenantSettings}

theorem verifyToken_rejected
    (rejected : srv.signer.verifyDest settings.tracking.signingKeys req.token dest = .error e) :
    srv.verifyToken req tenantID settings kind dest = pure (.error (.token e)) := by
  simp [Server.verifyToken, rejected]

theorem loadSettings_stored (outages : ∀ n, ∀ e ∈ plan n, Outage e)
    (stored : (s.provider.tenants tenantID).settings = some settings) :
    ((loadTenantSettings TrackCall.loadSettings tenantID req.key req.now).zoom
      (ServerState.tenant tenantID)).run plan s =
        (match plan 0 with | none => .ok settings | some e => .error e, s) := by
  have loaded := loadTenantSettings_run_stored TrackCall.loadSettings tenantID req.key req.now outages stored
  exact (run_zoom loaded).trans (congrArg (Prod.mk _) ((ServerState.tenant tenantID).set_get s))

theorem loadSettings_absent (outages : ∀ n, ∀ e ∈ plan n, Outage e)
    (absent : (s.provider.tenants tenantID).settings = none) :
    (plan 0 = none ∧ plan 1 = none ∧ ∃ v after,
      ((loadTenantSettings TrackCall.loadSettings tenantID req.key req.now).zoom
        (ServerState.tenant tenantID)).run plan s = (.ok v, after) ∧
      (after.provider.tenants tenantID).settings ≠ none) ∨ ((plan 0 ≠ none ∨ plan 1 ≠ none) ∧ ∃ e,
      ((loadTenantSettings TrackCall.loadSettings tenantID req.key req.now).zoom
        (ServerState.tenant tenantID)).run plan s = (.error e, s)) := by
  rcases loadTenantSettings_run_absent TrackCall.loadSettings tenantID req.key req.now outages absent with
    ⟨first, second, v, stored, created⟩ | ⟨failing, e, failed⟩
  · refine .inl ⟨first, second, v, _, run_zoom created, ?_⟩
    simp [ServerState.tenant]
  · refine .inr ⟨failing, e, ?_⟩
    exact (run_zoom failed).trans (congrArg (Prod.mk _) ((ServerState.tenant tenantID).set_get s))

theorem resolveToken_harmless (outages : ∀ n, ∀ e ∈ plan n, Outage e) (rejected : Rejected srv s req.token dest)
    (harmless : Harmless s req.token plan) : ∃ e, (srv.resolveToken req kind dest).run plan s = (.error e, s) := by
  cases named : tenantOf req.token with
  | error e =>
      simp only [Server.resolveToken, named]
      exact ⟨_, rfl⟩
  | ok tenantID =>
      have later : ∀ n, ∀ e ∈ plan (n + 1), Outage e := fun n => outages (n + 1)
      simp only [Server.resolveToken, named, query_bind, run_call]
      cases first : plan 0 with
      | some e => exact ⟨_, rfl⟩
      | none =>
          rw [run_bind]
          cases stored : (s.provider.tenants tenantID).settings with
          | some settings =>
              obtain ⟨e, refused⟩ := rejected tenantID named
              rw [storedKeys, stored] at refused
              rw [loadSettings_stored later stored]
              cases plan (0 + 1) with
              | none =>
                  simp only [verifyToken_rejected refused]
                  exact ⟨_, rfl⟩
              | some e => exact ⟨_, rfl⟩
          | none =>
              rcases loadSettings_absent later stored with ⟨second, third, _⟩ | ⟨_, e, failed⟩
              · have harm := harmless tenantID named
                simp [stored, first, second, third] at harm
              · rw [failed]
                exact ⟨_, rfl⟩

theorem SettingsKept.refl (s : ServerState) : SettingsKept s s :=
  fun _ kept => kept

theorem SettingsKept.trans (left : SettingsKept first second) (right : SettingsKept second third) :
    SettingsKept first third :=
  fun tenantID kept => right tenantID (left tenantID kept)

def KeepsSettings {α : Type} (program : TrackProc α) : Prop :=
  program.Makes (fun _ effect => ∀ store, SettingsKept store (effect store)) fun _ => True

variable {β : Type}

theorem act_keeps {op : TenantStore → Except Err β × TenantStore}
    (kept : ∀ store, (op store).2.settings = store.settings) (store : ServerState) :
    SettingsKept store ((ServerState.tenant tenantID).act op store).2 := by
  intro other stored
  simp only [Lens.act, ServerState.tenant, Provider.put_get]
  split
  next same =>
    rw [kept, ← same]
    exact stored
  · exact stored

variable {α : Type}

theorem KeepsSettings.run (keeps : KeepsSettings program) (plan : Nat → Option Err) (s : ServerState) :
    SettingsKept s (program.run plan s).2 :=
  Makes.run_keeps keeps SettingsKept.refl (fun _ _ _ => SettingsKept.trans) plan s

theorem query_keeps (continues : ∀ reply, KeepsSettings (next reply)) : KeepsSettings (query tag look >>= next) :=
  makes_query SettingsKept.refl fun reply _ => continues reply

theorem invoke_keeps {op : ServerState → Except Err β × ServerState}
    (kept : ∀ store, SettingsKept store (op store).2) (continues : ∀ reply, KeepsSettings (next reply)) :
    KeepsSettings (invoke tag op >>= next) :=
  makes_invoke kept continues

theorem loadDelivery_keeps (tenantID id : Text) : KeepsSettings (Server.loadDelivery tenantID id) := by
  apply query_keeps
  intro reply
  cases reply with
  | ok d => trivial
  | error e =>
      dsimp only
      split <;> trivial

theorem verifyToken_keeps : KeepsSettings (srv.verifyToken req tenantID settings kind dest) := by
  rw [Server.verifyToken]
  split
  · trivial
  · split
    · trivial
    · apply Makes.bind (loadDelivery_keeps _ _)
      intro reply _
      cases reply <;> trivial

theorem record_keeps : KeepsSettings (srv.record tc event req) := by
  rw [Server.record]
  split
  · trivial
  · exact invoke_keeps (fun store => SettingsKept.refl store) fun _ => trivial

theorem resolveToken_creates (srv : Server) (kind : Kind) (dest : Text) (outages : ∀ n, ∀ e ∈ plan n, Outage e)
    (named : tenantOf req.token = .ok tenantID) (absent : (s.provider.tenants tenantID).settings = none)
    (first : plan 0 = none) (second : plan 1 = none) (third : plan 2 = none) :
    (((srv.resolveToken req kind dest).run plan s).2.provider.tenants tenantID).settings ≠ none := by
  have later : ∀ n, ∀ e ∈ plan (n + 1), Outage e := fun n => outages (n + 1)
  simp only [Server.resolveToken, named, query_bind, run_call, first]
  rw [run_bind]
  rcases loadSettings_absent later absent with ⟨_, _, v, after, created, stored⟩ | ⟨failed, _⟩
  · rw [created]
    exact verifyToken_keeps.run _ after tenantID stored
  · simp [second, third] at failed

theorem upsert_keeps (s : TenantStore) : (s.suppressionUpsert v).2.settings = s.settings := by
  rw [TenantStore.suppressionUpsert]
  split <;> rfl

theorem finishUnsubscribe_keeps :
    KeepsSettings (Server.emitUnsubscribed tenantID d source req >>= fun _ => pure response) :=
  invoke_keeps (act_keeps fun _ => rfl) fun _ => trivial

/-- What the four routes have in common: they refuse, or go on with what the
token resolves to, and a token that resolves to nothing ends the request. -/
theorem guarded_iff {next : Except ResolveError TrackCtx → TrackProc TrackResponse}
    (dismisses : ∀ e, ∃ response, next (.error e) = .done response) (keeps : ∀ tc, KeepsSettings (next (.ok tc)))
    (outages : ∀ n, ∀ e ∈ plan n, Outage e) (rejected : Rejected srv s req.token dest) :
    ((if !req.allowed then pure refuse else srv.resolveToken req kind dest >>= next :
        TrackProc TrackResponse).run plan s).2.provider.tenants = s.provider.tenants ↔
      req.allowed = false ∨ Harmless s req.token plan := by
  cases allowed : req.allowed with
  | false => simp
  | true =>
      simp only [Bool.not_true, Bool.false_eq_true, ↓reduceIte, false_or, Bool.true_eq_false, run_bind]
      constructor
      · intro unchanged tenantID named
        by_contra harm
        simp only [not_or, not_not] at harm
        obtain ⟨absent, first, second, third⟩ := harm
        have created := resolveToken_creates srv kind dest outages named absent first second third
        have kept : ∀ reply, KeepsSettings (next reply) := by
          intro reply
          cases reply with
          | ok tc => exact keeps tc
          | error e =>
              obtain ⟨response, dismissed⟩ := dismisses e
              rw [dismissed]
              trivial
        have stored := (kept ((srv.resolveToken req kind dest).run plan s).1).run
          (fun n => plan (n + ((srv.resolveToken req kind dest).trace plan s).length)) _ tenantID created
        rw [unchanged] at stored
        exact stored absent
      · intro harmless
        obtain ⟨e, resolved⟩ := resolveToken_harmless outages rejected harmless
        obtain ⟨response, dismissed⟩ := dismisses e
        rw [resolved, dismissed]
        rfl

/-- A request whose token is rejected changes no tenant's state exactly when it
is refused by the rate limiter or cannot create settings. -/
theorem tenants_unchanged_iff (route : Route) (outages : ∀ n, ∀ e ∈ plan n, Outage e)
    (rejected : Rejected srv s req.token (route.dest req)) :
    ((srv.serve req route).run plan s).2.provider.tenants = s.provider.tenants ↔
      req.allowed = false ∨ Harmless s req.token plan := by
  cases route with
  | trackOpen | trackClick =>
      apply guarded_iff (fun _ => ⟨_, rfl⟩) _ outages rejected
      intro tc
      dsimp only
      split
      · exact Makes.bind record_keeps fun _ _ => trivial
      · trivial
  | trackUnsubscribeClick =>
      apply guarded_iff (fun _ => ⟨_, rfl⟩) _ outages rejected
      intro tc
      dsimp only
      split
      · trivial
      · exact Makes.bind record_keeps fun _ _ => trivial
  | oneClickUnsubscribe =>
      apply guarded_iff (fun _ => ⟨_, rfl⟩) _ outages rejected
      intro tc
      apply Makes.bind record_keeps
      intro _ _
      cases tc.delivery with
      | none => trivial
      | some d =>
          dsimp only
          split
          · exact invoke_keeps (act_keeps upsert_keeps) fun _ => finishUnsubscribe_keeps
          · exact finishUnsubscribe_keeps

end

def pixelServer : Server where
  signer := { hmac := fun secret _ => secret }
  trimSpace ua := ua
  toLower ua := ua

/-- The open token of delivery d of tenant x, with a MAC of zeros. -/
def forgedRequest : TrackRequest where
  allowed := true
  token := text "k.AXgBZAEAAAAAAAAAAAAAAAAAAAAAAA"
  now := 1000000
  recordedAt := 1000000
  key := { kid := text "0a0b0c0d", secret := text "secret" }

theorem forgedRequest_names (named : tenantOf forgedRequest.token = .ok tenantID) : tenantID = text "x" := by
  exact (Except.ok.inj named).symm

def configuredState : ServerState where
  provider := Provider.put (text "x") {
      settings := some { tracking := { signingKeys := [{ kid := text "k", secret := text "secret" }] } } }
    { tenants _ := {} }

theorem forged_open_changes_nothing :
    ((pixelServer.serve forgedRequest .trackOpen).exec configuredState).2.provider.tenants =
      configuredState.provider.tenants := by
  apply (tenants_unchanged_iff .trackOpen (by simp) _).mpr
  · right
    intro tenantID named
    rw [forgedRequest_names named]
    exact .inl (by decide)
  · intro tenantID named
    rw [forgedRequest_names named]
    exact ⟨.badSignature [], by decide⟩

/-- Nobody has ever used tenant x.  The forged token is rejected, and the tenant
has a settings row afterwards. -/
theorem forged_open_creates_settings :
    Rejected pixelServer { provider := { tenants _ := {} } } forgedRequest.token
        (Route.trackOpen.dest forgedRequest) ∧
      ((pixelServer.serve forgedRequest .trackOpen).exec { provider := { tenants _ := {} } }).1 = .badPixel ∧
      ((pixelServer.serve forgedRequest .trackOpen).exec
        { provider := { tenants _ := {} } }).2.provider.tenants ≠ fun _ => {} := by
  refine ⟨?_, by decide, fun unchanged => ?_⟩
  · intro tenantID named
    rw [forgedRequest_names named]
    exact ⟨.unknownKID (text "k"), by decide⟩
  · have created : (((pixelServer.serve forgedRequest .trackOpen).exec
        { provider := { tenants _ := {} } }).2.provider.tenants (text "x")).settings.isSome = true := by decide
    rw [unchanged] at created
    cases created

end Sendplane.Api
