import Sendplane.Memstore.Tenant
import Sendplane.Store.Locking

namespace Sendplane.Memstore

open Data Store

def lockAcquire (tenant name owner : Text) (ttl : Duration) (now : Time) (locks : Table Text Lock) :
    Bool × Table Text Lock :=
  let now := truncateTime now
  let l : Lock :=
    { tenantID := tenant, name, owner, acquiredAt := now, expiresAt := truncateTime (now + ttl) }
  match locks[name]? with
  | none => (true, locks.insert name l)
  | some cur =>
      if cur.owner ≠ owner ∧ now < cur.expiresAt then (false, locks)
      else if cur.owner = owner then (true, locks.insert name { l with acquiredAt := cur.acquiredAt })
      else (true, locks.insert name l)

def lockRenew (name owner : Text) (ttl : Duration) (now : Time) (locks : Table Text Lock) :
    Bool × Table Text Lock :=
  let now := truncateTime now
  match locks[name]? with
  | none => (false, locks)
  | some cur =>
      if cur.owner ≠ owner ∨ ¬ now < cur.expiresAt then (false, locks)
      else (true, locks.modify name fun cur => { cur with expiresAt := truncateTime (now + ttl) })

def lockRelease (name owner : Text) (locks : Table Text Lock) : Table Text Lock :=
  match locks[name]? with
  | none => locks
  | some cur => if cur.owner = owner then locks.erase name else locks

def lockRepo (tenant : Text) : LockRepo where
  acquire := lockAcquire tenant
  renew := lockRenew
  release := lockRelease

def lockExpiry (ttl : Duration) (now : Time) : Time :=
  truncateTime (truncateTime now + ttl)

section

attribute [local simp] lockRepo lockExpiry LockRepo.attempt Attempt.bid holder Lease.granted

theorem lockRepo_leases (tenant : Text) : (lockRepo tenant).Leases lockExpiry where
  settles name request locks := by
    rcases request with ⟨_ | _, owner, ttl, now⟩
    · cases found : locks[name]? with
      | none =>
          refine ⟨⟨tenant, name, owner, truncateTime now, lockExpiry ttl now⟩, rfl, rfl, ?_⟩
          simp [lockAcquire, found]
      | some cur =>
          let acquiredAt := if cur.owner = owner then cur.acquiredAt else truncateTime now
          refine ⟨⟨tenant, name, owner, acquiredAt, lockExpiry ttl now⟩, rfl, rfl, ?_⟩
          by_cases owned : cur.owner = owner <;> by_cases live : truncateTime now < cur.expiresAt <;>
            simp [lockAcquire, found, acquiredAt, owned, live, ← not_lt]
    · cases found : locks[name]? with
      | none =>
          refine ⟨⟨[], [], owner, 0, lockExpiry ttl now⟩, rfl, rfl, ?_⟩
          simp [lockRenew, found]
      | some cur =>
          refine ⟨{ cur with owner, expiresAt := lockExpiry ttl now }, rfl, rfl, ?_⟩
          by_cases owned : cur.owner = owner <;> by_cases live : truncateTime now < cur.expiresAt <;>
            simp [lockRenew, found, Table.modify_eq_insert found, owned, live]
  released name owner locks := by
    cases found : locks[name]? with
    | none | some => simp [lockRelease, found]

end

namespace TenantStore

def lockAcquire (name owner : Text) (ttl : Duration) (now : Time) (s : TenantStore) :
    Except Err Bool × TenantStore :=
  let (taken, locks) := (lockRepo s.tenant).acquire name owner ttl now s.locks
  (.ok taken, { s with locks })

def lockRenew (name owner : Text) (ttl : Duration) (now : Time) (s : TenantStore) :
    Except Err Bool × TenantStore :=
  let (renewed, locks) := (lockRepo s.tenant).renew name owner ttl now s.locks
  (.ok renewed, { s with locks })

def lockRelease (name owner : Text) (s : TenantStore) : Except Err Unit × TenantStore :=
  (.ok (), { s with locks := (lockRepo s.tenant).release name owner s.locks })

end TenantStore

end Sendplane.Memstore
