import Sendplane.Api.Rejection
import Sendplane.Data.Checks
import Sendplane.Tracking.RoundTrip

namespace Sendplane.Api

open Data Store Memstore Sendplane.Tracking

/-- The key ID and the MAC bytes of a token, and the payload it claims when it
comes with the destination. -/
def presented (token dest : Text) : Option (Text × Text × TokenPayload) :=
  match cut token kidSep with
  | none => none
  | some (kid, rest) =>
      match splitToken rest with
      | .error _ => none
      | .ok (body, mac) =>
          match decodeBody body with
          | .error _ => none
          | .ok p => some (kid, mac, p.withDest dest)

@[simp] theorem withDest_tenantID (p : TokenPayload) : (p.withDest dest).tenantID = p.tenantID := by
  rw [TokenPayload.withDest]
  split <;> rfl

theorem splitToken_nil : splitToken [] = .error (.malformed (text "too short")) := by
  decide

variable {dest kid : Text} {p : TokenPayload}

theorem tenantOf_of_presented {token mac : Text} (claims : presented token dest = some (kid, mac, p)) :
    tenantOf token = if p.tenantID = [] then .error (.malformed (text "no tenant id")) else .ok p.tenantID := by
  rw [presented] at claims
  cases separated : cut token kidSep with
  | none => simp only [separated, reduceCtorEq] at claims
  | some parts =>
      obtain ⟨named, rest⟩ := parts
      simp only [separated] at claims
      have nonempty : rest ≠ [] := by
        rintro rfl
        simp only [splitToken_nil, reduceCtorEq] at claims
      cases split : splitToken rest with
      | error e => simp only [split, reduceCtorEq] at claims
      | ok halves =>
          obtain ⟨body, tag⟩ := halves
          simp only [split] at claims
          cases decoded : decodeBody body with
          | error e => simp only [decoded, reduceCtorEq] at claims
          | ok q =>
              simp only [decoded, Option.some.injEq] at claims
              obtain ⟨-, -, rfl⟩ := claims
              simp only [tenantOf, separated, nonempty, split, bind, Except.bind, decoded, withDest_tenantID]
              rfl

section

variable {signer : Signer}

theorem keyByID_some (found : keyByID keys kid = some key) : key ∈ keys ∧ key.kid = kid ∧ key.secret ≠ [] := by
  have matching := List.find?_some found
  simp only [Bool.and_eq_true, decide_eq_true_eq] at matching
  exact ⟨List.mem_of_find?_eq_some found, matching⟩

theorem verifyDest_accepted (accepted : signer.verifyDest keys token dest = .ok p) :
    ∃ key ∈ keys, key.secret ≠ [] ∧ presented token dest = some (key.kid, signer.computeMAC key.secret p, p) := by
  rw [Signer.verifyDest] at accepted
  cases separated : cut token kidSep with
  | none => simp only [separated, reduceCtorEq] at accepted
  | some parts =>
      obtain ⟨kid, rest⟩ := parts
      simp only [separated] at accepted
      split at accepted
      · cases accepted
      obtain ⟨⟨body, mac⟩, split, accepted⟩ := Checks.bind_ok accepted
      obtain ⟨q, decoded, accepted⟩ := Checks.bind_ok accepted
      split at accepted
      · cases accepted
      have asked : (if q.kind.embedsDest = true then q else { q with dest }) = q.withDest dest := rfl
      rw [asked] at accepted
      split at accepted
      · cases accepted
      next key found =>
        split at accepted
        · cases accepted
        next matching =>
          obtain rfl := Except.ok.inj accepted
          obtain ⟨member, rfl, usable⟩ := keyByID_some found
          refine ⟨key, member, usable, ?_⟩
          dsimp only at decoded matching
          simp [presented, separated, split, decoded, not_not.mp matching]

end

/-- Only who has the secret can make a MAC: if the MAC bytes of the token check
for the payload it claims, then `issued` says that this was signed. -/
def Unforged (signer : Signer) (issued : Text → TokenPayload → Prop) (keys : List SigningKey)
    (token dest : Text) : Prop :=
  ∀ key ∈ keys, ∀ kid p, presented token dest = some (kid, signer.computeMAC key.secret p, p) →
    ∃ q, issued key.secret q ∧ macInput q = macInput p

section

variable {srv : Server} {s : ServerState} {trace : Prog.Trace TrackCall}

theorem loadDelivery_ends {tenantID id : Text}
    (ends : (Server.loadDelivery tenantID id).Ends (fun _ => Outage) s trace reply after) : after = s := by
  obtain ⟨later, ⟨rfl, answered⟩ | ⟨rfl, failure, outage, failed⟩⟩ := Prog.ends_query ends
  · cases found : (s.provider.tenants tenantID).deliveryGet id with
    | ok d =>
        rw [found] at answered
        exact answered.2.2
    | error e =>
        simp only [found] at answered
        split at answered <;> exact answered.2.2
  · dsimp only at failed
    split at failed <;> exact failed.2.2

theorem resolveToken_ends (ends : (srv.resolveToken req kind dest).Ends (fun _ => Outage) s trace (.ok tc) after) :
    tenantOf req.token = .ok tc.tenantID ∧ tc.payload.kind = kind ∧
      srv.signer.verifyDest (storedKeys after tc.tenantID) req.token dest = .ok tc.payload := by
  rw [Server.resolveToken] at ends
  cases named : tenantOf req.token with
  | error e =>
      simp only [named] at ends
      cases ends.2.1
  | ok tenantID =>
      simp only [named] at ends
      obtain ⟨later, ⟨rfl, opened⟩ | ⟨rfl, failure, outage, failed⟩⟩ := Prog.ends_query ends
      swap
      · cases failed.2.1
      obtain ⟨loading, checking, reply, store, rfl, loaded, ends⟩ := Prog.ends_bind opened
      cases reply with
      | error e => cases ends.2.1
      | ok settings =>
          have kept : (store.provider.tenants tenantID).settings.map (·.tracking.signingKeys) =
              some settings.tracking.signingKeys := by
            obtain ⟨-, ⟨e, impossible, -⟩ | ⟨v, same, stored, unchanged⟩ | ⟨v, same, absent, created⟩⟩ :=
              loadTenantSettings_ends (Prog.ends_zoom loaded).1
            · cases impossible
            · obtain rfl := Except.ok.inj same
              have row : (store.provider.tenants tenantID).settings = some settings := by
                rw [← stored]
                exact congrArg TenantStore.settings unchanged
              rw [row]
              rfl
            · obtain rfl := Except.ok.inj same
              have row := congrArg (fun pair => pair.2.settings.map (·.tracking.signingKeys)) created
              have value := congrArg (fun pair => pair.1.map (·.tracking.signingKeys)) created
              simp only [TenantStore.settingsCreate, absent, Except.map] at row value
              rw [← Except.ok.inj value]
              exact row.symm
          simp only [Server.verifyToken] at ends
          cases verdict : srv.signer.verifyDest settings.tracking.signingKeys req.token dest with
          | error e =>
              simp only [verdict] at ends
              cases ends.2.1
          | ok payload =>
              simp only [verdict] at ends
              split at ends
              · cases ends.2.1
              next sameKind =>
                obtain ⟨_, _, delivery, final, -, looked, ends⟩ := Prog.ends_bind ends
                obtain rfl := loadDelivery_ends looked
                cases delivery with
                | error e => cases ends.2.1
                | ok delivery =>
                    obtain ⟨-, same, rfl⟩ := ends
                    obtain rfl := Except.ok.inj same
                    refine ⟨rfl, not_not.mp sameKind, ?_⟩
                    rw [storedKeys]
                    cases row : (after.provider.tenants tenantID).settings with
                    | none => simp [row] at kept
                    | some stored =>
                        simp only [row, Option.map_some, Option.some.injEq] at kept
                        simp [kept, verdict]

theorem record_ends (ends : (srv.record tc kind req).Ends (fun _ => Outage) s trace () after) :
    after.provider = s.provider := by
  rw [Server.record] at ends
  cases found : tc.delivery with
  | none =>
      simp only [found] at ends
      rw [ends.2.2]
  | some d =>
      simp only [found] at ends
      obtain ⟨later, ⟨rfl, buffered⟩ | ⟨rfl, failure, outage, failed⟩⟩ := Prog.ends_invoke ends
      · rw [buffered.2.2]
      · rw [failed.2.2]

theorem trackClick_ends {location : Text}
    (ends : (srv.trackClick req).Ends (fun _ => Outage) s trace (.redirect location) after) :
    location = req.u ∧ ∃ tenantID p, tenantOf req.token = .ok tenantID ∧ p.kind = .click ∧
      srv.signer.verifyDest (storedKeys after tenantID) req.token req.u = .ok p := by
  rw [Server.trackClick] at ends
  split at ends
  · cases ends.2.1
  obtain ⟨_, _, resolved, store, -, resolving, ends⟩ := Prog.ends_bind ends
  cases resolved with
  | error e => cases ends.2.1
  | ok tc =>
      obtain ⟨named, kind, verified⟩ := resolveToken_ends resolving
      dsimp only at ends
      have recorded : location = req.u ∧ after.provider = store.provider := by
        split at ends
        · obtain ⟨_, _, _, final, -, recording, answered⟩ := Prog.ends_bind ends
          obtain ⟨-, same, rfl⟩ := answered
          exact ⟨TrackResponse.redirect.inj same, record_ends recording⟩
        · obtain ⟨-, same, rfl⟩ := ends
          exact ⟨TrackResponse.redirect.inj same, rfl⟩
      refine ⟨recorded.1, tc.tenantID, tc.payload, named, kind, ?_⟩
      rw [storedKeys, recorded.2]
      exact verified

end

theorem withDest_dest (external : ¬p.kind.embedsDest = true) : (p.withDest dest).dest = dest := by
  rw [TokenPayload.withDest, if_neg external]

/-- A token that claims a payload of a kind that does not embed its destination
claims the destination it comes with. -/
theorem presented_dest {token mac : Text} (claims : presented token dest = some (kid, mac, p))
    (click : p.kind = .click) : p.dest = dest := by
  rw [presented] at claims
  split at claims
  · cases claims
  split at claims
  · cases claims
  split at claims
  · cases claims
  next q decoded =>
    obtain ⟨-, -, rfl⟩ := claims
    apply withDest_dest
    intro embeds
    rw [TokenPayload.withDest, if_pos embeds] at click
    rw [click] at embeds
    exact absurd embeds (by decide)

theorem presented_sign {signer : Signer} (sized : ∀ secret input, (signer.hmac secret input).length = 32)
    (kidNonempty : kid ≠ []) (kidFree : kidSep ∉ kid) (secretNonempty : secret ≠ []) (signable : q.Signable) :
    presented (signer.sign kid secret q) dest = some (kid, signer.computeMAC secret q, q.carried.withDest dest) := by
  rw [sign_eq kidNonempty kidFree secretNonempty signable, presented, cut_append kidFree]
  simp [splitToken_sign sized secret q, decodeBody_encodeBody signable]

/-- An accepted token carries the MAC of the payload it is accepted as, under the
key it names.  So, as long as MACs are not forged, a click redirects only to a
destination that was signed with a key of the tenant for the delivery and the link
of the token, and a token that was issued for one payload is not accepted for
another. -/
theorem accepted_token_authentic (srv : Server) (issued : Text → TokenPayload → Prop) :
    (∀ keys token dest p, srv.signer.verifyDest keys token dest = .ok p → (∃ key ∈ keys, key.secret ≠ [] ∧
        presented token dest = some (key.kid, srv.signer.computeMAC key.secret p, p)) ∧
      tenantOf token = if p.tenantID = [] then .error (.malformed (text "no tenant id")) else .ok p.tenantID) ∧
    (∀ p q, macInput p = macInput q → p = q) ∧ (∀ req s trace location after,
      (srv.trackClick req).Ends (fun _ => Outage) s trace (.redirect location) after →
      (∀ tenantID, Unforged srv.signer issued (storedKeys after tenantID) req.token req.u) →
      ∃ tenantID, tenantOf req.token = .ok tenantID ∧ ∃ key ∈ storedKeys after tenantID, ∃ p,
        presented req.token req.u = some (key.kid, srv.signer.computeMAC key.secret p, p) ∧
        p.tenantID = tenantID ∧ p.kind = .click ∧ p.dest = location ∧ issued key.secret p) ∧
    (∀ keys token dest p secret q kid claimed, srv.signer.verifyDest keys token dest = .ok p →
      presented token dest = some (kid, srv.signer.computeMAC secret q, claimed) →
      (∀ key ∈ keys, srv.signer.computeMAC key.secret p = srv.signer.computeMAC secret q → macInput p = macInput q) →
      p = q) ∧ ((∀ secret input, (srv.signer.hmac secret input).length = 32) →
      ∀ kid secret dest q, kid ≠ [] → kidSep ∉ kid → secret ≠ [] → q.Signable →
        presented (srv.signer.sign kid secret q) dest =
          some (kid, srv.signer.computeMAC secret q, q.carried.withDest dest)) := by
  refine ⟨?_, fun p q => macInput_inj, ?_, ?_, ?_⟩
  · intro keys token dest p accepted
    obtain ⟨key, member, usable, claims⟩ := verifyDest_accepted accepted
    exact ⟨⟨key, member, usable, claims⟩, tenantOf_of_presented claims⟩
  · intro req s trace location after ends unforged
    obtain ⟨rfl, tenantID, p, named, click, accepted⟩ := trackClick_ends ends
    obtain ⟨key, member, -, claims⟩ := verifyDest_accepted accepted
    have tenants := tenantOf_of_presented claims
    rw [named] at tenants
    split at tenants
    · cases tenants
    obtain ⟨q, signed, inputs⟩ := unforged tenantID key member key.kid p claims
    obtain rfl := macInput_inj inputs
    exact ⟨tenantID, named, key, member, q, claims, (Except.ok.inj tenants).symm, click,
      presented_dest claims click, signed⟩
  · intro keys token dest p secret q kid claimed accepted carries distinct
    obtain ⟨key, member, -, claims⟩ := verifyDest_accepted accepted
    rw [claims, Option.some.injEq, Prod.mk.injEq, Prod.mk.injEq] at carries
    exact macInput_inj (distinct key member carries.2.1)
  · intro sized kid secret dest q kidNonempty kidFree secretNonempty signable
    exact presented_sign sized kidNonempty kidFree secretNonempty signable

/-- A holder of the key can make a token without tenant.  It is accepted, and its
tenant is an error. -/
theorem verifyDest_accepts_no_tenant :
    let p : TokenPayload := { tenantID := [], deliveryID := text "d", kind := .opened, linkNo := 0 }
    let key : SigningKey := { kid := text "a", secret := [1] }
    let token := key.kid ++ kidSep :: Base64.encode (encodeBody p ++ lastBytes.computeMAC key.secret p)
    lastBytes.verifyDest [key] token [] = .ok p ∧ tenantOf token ≠ .ok p.tenantID := by
  decide +kernel

def clickServer : Server where
  signer := lastBytes
  trimSpace ua := ua
  toLower ua := ua

def clickPayload : TokenPayload where
  tenantID := text "x"
  deliveryID := text "d"
  kind := .click
  linkNo := 1
  dest := text "https://example.org"

def clickRequest : TrackRequest where
  allowed := true
  token := lastBytes.sign (text "k") (text "secret") clickPayload
  u := text "https://example.org"
  now := 1000000
  recordedAt := 1000000

theorem clickRequest_redirects :
    ((clickServer.trackClick clickRequest).exec configuredState).1 = .redirect (text "https://example.org") := by
  decide +kernel

theorem clickRequest_authentic :
    ∃ tenantID, tenantOf clickRequest.token = .ok tenantID ∧
      ∃ key ∈ storedKeys ((clickServer.trackClick clickRequest).exec configuredState).2 tenantID, ∃ p,
        presented clickRequest.token clickRequest.u = some (key.kid, clickServer.signer.computeMAC key.secret p, p) ∧
        p.tenantID = tenantID ∧ p.kind = .click ∧ p.dest = text "https://example.org" ∧ p = clickPayload := by
  have claims : presented clickRequest.token clickRequest.u =
      some (text "k", lastBytes.computeMAC (text "secret") clickPayload, clickPayload) := by decide +kernel
  obtain ⟨trace, -, ends⟩ := Prog.ends_exec (fun _ => Outage) (clickServer.trackClick clickRequest) configuredState
  rw [clickRequest_redirects] at ends
  refine (accepted_token_authentic clickServer fun _ q => q = clickPayload).2.2.1 _ _ _ _ _ ends ?_
  intro tenantID key _ kid p matching
  rw [claims] at matching
  exact ⟨clickPayload, rfl, by rw [(Prod.mk.inj (Prod.mk.inj (Option.some.inj matching)).2).2]⟩

end Sendplane.Api
