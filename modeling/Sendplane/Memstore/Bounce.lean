import Sendplane.Memstore.Tenant

namespace Sendplane.Memstore

open Data Store

/-- Events are immutable: no version and no update time. -/
def bounceMeta : Meta BounceEvent where
  id := ⟨BounceEvent.id, fun b id => { b with id }⟩
  tenant := ⟨BounceEvent.tenantID, fun b tenantID => { b with tenantID }⟩
  version := none
  created := ⟨BounceEvent.createdAt, fun b createdAt => { b with createdAt }⟩
  updated := none
  truncateRow b := { b with
    createdAt := truncateTime b.createdAt
    receivedAt := truncateTime b.receivedAt }

def Suppression.live (now : Time) (v : Suppression) : Bool :=
  v.expiresAt = 0 || truncateTime now < v.expiresAt

namespace TenantStore

def bounceCreate (newID : Text) (b : BounceEvent) (s : TenantStore) : Except Err BounceEvent × TenantStore :=
  let (reply, bounces) := create bounceMeta s.tenant s.now newID s.bounces b
  (reply, { s with bounces })

def storedSuppression (s : TenantStore) (v : Suppression) : Suppression :=
  { v with
    tenantID := s.tenant
    createdAt := truncateTime (if v.createdAt = 0 then s.now else v.createdAt)
    expiresAt := truncateTime v.expiresAt }

def suppressionUpsert (v : Suppression) (s : TenantStore) : Except Err Unit × TenantStore :=
  if v.emailNorm = [] then
    (.error (.wrap .invalid (text "suppression needs email_norm")), s)
  else (.ok (), { s with suppressions := s.suppressions.insert v.emailNorm (s.storedSuppression v) })

def isSuppressed (emailNorm : Text) (now : Time) (s : TenantStore) : Except Err Bool :=
  match s.suppressions[emailNorm]? with
  | none => .ok false
  | some v => .ok (Suppression.live now v)

def deliveryGet (id : Text) (s : TenantStore) : Except Err Delivery :=
  s.get id

def deliveryMarkComplained (id : Text) (time : Time) (s : TenantStore) : Except Err Bool × TenantStore :=
  let (changed, repo) := s.markComplained id time
  (.ok changed, { s with toDeliveryRepo := repo })

def storedBounce (s : TenantStore) (b : BounceEvent) : BounceEvent :=
  bounceMeta.truncateRow (createdRow bounceMeta s.tenant s.now b)

theorem createdRow_bounce (tenant : Text) (now : Time) (b : BounceEvent) :
    (createdRow bounceMeta tenant now b).id = b.id ∧ (createdRow bounceMeta tenant now b).deliveryID = b.deliveryID ∧
      (createdRow bounceMeta tenant now b).type = b.type ∧
      (createdRow bounceMeta tenant now b).verified = b.verified := by
  simp only [createdRow]
  split <;> exact ⟨rfl, rfl, rfl, rfl⟩

theorem bounceCreate_fresh {s : TenantStore} (newID : Text) (b : BounceEvent) (named : b.id ≠ [])
    (fresh : s.bounces[b.id]? = none) :
    ∃ row, s.bounceCreate newID b = (.ok row, { s with bounces := s.bounces.insert b.id (s.storedBounce b) }) := by
  have found : s.bounces[bounceMeta.id.get b]? = none := fresh
  have given : bounceMeta.id.get b ≠ [] := named
  have kept : bounceMeta.id.get (createdRow bounceMeta s.tenant s.now b) = b.id :=
    (createdRow_bounce s.tenant s.now b).1
  simp only [bounceCreate, create, given, ↓reduceIte, found, kept]
  exact ⟨_, rfl⟩

theorem bounceCreate_writes (s : TenantStore) :
    (s.bounceCreate newID b).2 = s ∨ ∃ id row, s.bounces[id]? = none ∧ row.verified = b.verified ∧
      (s.bounceCreate newID b).2 = { s with bounces := s.bounces.insert id row } := by
  unfold bounceCreate create
  dsimp only
  split
  · exact .inl rfl
  next missing =>
    obtain ⟨same, _, _, verified⟩ := createdRow_bounce s.tenant s.now
      (if bounceMeta.id.get b = [] then bounceMeta.id.set b newID else b)
    refine .inr ⟨_, _, ?_, ?_, rfl⟩
    · rw [show bounceMeta.id.get (createdRow bounceMeta s.tenant s.now _) = _ from same]
      exact missing
    · refine Eq.trans verified ?_
      split <;> rfl

end TenantStore

end Sendplane.Memstore
