import Sendplane.Memstore.Lock
import Sendplane.Postgres.Delivery

namespace Sendplane.Postgres

open Data Store

def lockAcquire (tenant name owner : Text) (ttl : Duration) (now : Time) (locks : Table Text Lock) :
    Bool × Table Text Lock :=
  let excluded : Lock :=
    { tenantID := tenant, name, owner, acquiredAt := tsInNN now, expiresAt := tsInNN (now + ttl) }
  match locks[name]? with
  | none => (true, locks.insert name excluded)
  | some jobLock =>
      -- No row comes back when the WHERE of the conflict action fails.
      if jobLock.owner = excluded.owner ∨ jobLock.expiresAt ≤ tsInNN now then
        (true, locks.insert name { jobLock with
          owner := excluded.owner
          acquiredAt := if jobLock.owner = excluded.owner then jobLock.acquiredAt else excluded.acquiredAt
          expiresAt := excluded.expiresAt })
      else (false, locks)

def lockRenew (name owner : Text) (ttl : Duration) (now : Time) (locks : Table Text Lock) :
    Bool × Table Text Lock :=
  match locks[name]? with
  | none => (false, locks)
  | some jobLock =>
      if jobLock.owner = owner ∧ tsInNN now < jobLock.expiresAt then
        (true, locks.insert name { jobLock with expiresAt := tsInNN (now + ttl) })
      else (false, locks)

def lockRelease (name owner : Text) (locks : Table Text Lock) : Table Text Lock :=
  match locks[name]? with
  | none => locks
  | some jobLock => if jobLock.owner = owner then locks.erase name else locks

def lockRepo (tenant : Text) : LockRepo where
  acquire := lockAcquire tenant
  renew := lockRenew
  release := lockRelease

def lockExpiry (ttl : Duration) (now : Time) : Time :=
  tsInNN (now + ttl)

section

attribute [local simp] lockRepo lockExpiry LockRepo.attempt Attempt.bid holder Lease.granted

theorem lockRepo_leases (tenant : Text) : (lockRepo tenant).Leases lockExpiry where
  settles name request locks := by
    rcases request with ⟨_ | _, owner, ttl, now⟩
    · cases found : locks[name]? with
      | none =>
          refine ⟨⟨tenant, name, owner, tsInNN now, lockExpiry ttl now⟩, rfl, rfl, ?_⟩
          simp [lockAcquire, found]
      | some jobLock =>
          refine ⟨{ jobLock with
            owner
            acquiredAt := if jobLock.owner = owner then jobLock.acquiredAt else tsInNN now
            expiresAt := lockExpiry ttl now }, rfl, rfl, ?_⟩
          by_cases owned : jobLock.owner = owner <;> by_cases expired : jobLock.expiresAt ≤ truncateTime now <;>
            simp [lockAcquire, found, owned, expired, tsInNN]
    · cases found : locks[name]? with
      | none =>
          refine ⟨⟨[], [], owner, 0, lockExpiry ttl now⟩, rfl, rfl, ?_⟩
          simp [lockRenew, found]
      | some jobLock =>
          refine ⟨{ jobLock with owner, expiresAt := lockExpiry ttl now }, rfl, rfl, ?_⟩
          by_cases owned : jobLock.owner = owner <;> by_cases live : truncateTime now < jobLock.expiresAt <;>
            simp [lockRenew, found, owned, live, tsInNN]
  released name owner locks := by
    cases found : locks[name]? with
    | none | some => simp [lockRelease, found]

end

inductive Backend where
  | memstore
  | postgres
deriving DecidableEq

def Backend.lockRepo : Backend → Text → LockRepo
  | .memstore => Memstore.lockRepo
  | .postgres => Postgres.lockRepo

theorem Backend.leases (backend : Backend) (tenant : Text) : ∃ expiry, (backend.lockRepo tenant).Leases expiry := by
  cases backend with
  | memstore => exact ⟨_, Memstore.lockRepo_leases tenant⟩
  | postgres => exact ⟨_, Postgres.lockRepo_leases tenant⟩

/-- Whoever obtains a lock keeps the others out until its expiry, unless it
releases the lock or moves the expiry itself, or somebody takes over with a
later reading; and at an instant no reading has passed at most one owner believes
that it holds the lock. -/
theorem lock_excludes (backend : Backend) (tenant name : Text) (start : Table Text Lock) (book : LockBook)
    (reached : (lockCalls (backend.lockRepo tenant)).Reachable { locks := start } book) :
    (∀ request : Attempt, ((backend.lockRepo tenant).attempt name request book.locks).1 = true →
      ∃ row : Lock, ((backend.lockRepo tenant).attempt name request book.locks).2[name]? = some row ∧
        row.owner = request.owner ∧
        ∀ later, (lockCalls (backend.lockRepo tenant)).Reaches
            (LockUndisturbed (backend.lockRepo tenant) name row.owner row.expiresAt)
            (book.next (backend.lockRepo tenant) (.attempt name request)) later →
          ∀ rival : Attempt, rival.owner ≠ row.owner → truncateTime rival.now < row.expiresAt →
            ((backend.lockRepo tenant).attempt name rival later.locks).1 = false) ∧
    (∀ owner ttl now, ((backend.lockRepo tenant).renew name owner ttl now book.locks).1 = true ↔
      ∃ row, book.locks[name]? = some row ∧ row.owner = owner ∧ truncateTime now < row.expiresAt) ∧
    (∀ owner, (∀ row, book.locks[name]? = some row → row.owner ≠ owner) →
      (backend.lockRepo tenant).release name owner book.locks = book.locks) ∧
    ∀ instant, (∀ reading ∈ book.readings name, reading ≤ instant) → ∀ owner other first second,
      book.believes name owner = some first → instant < first →
        book.believes name other = some second → instant < second → owner = other := by
  obtain ⟨expiry, leases⟩ := backend.leases tenant
  refine ⟨?_, ?_, ?_, ?_⟩
  · intro request taken
    have held := leases.holder_granted taken
    have stored := held
    simp only [holder, Option.map_eq_some_iff, Lease.Held.mk.injEq] at stored
    obtain ⟨row, found, owned, expires⟩ := stored
    rw [← owned, ← expires] at held
    refine ⟨row, found, owned, ?_⟩
    intro later undisturbed rival foreign early
    exact refused_of_undisturbed leases held undisturbed foreign early
  · intro owner ttl now
    exact renewed_iff leases ⟨true, owner, ttl, now⟩ rfl
  · intro owner foreign
    exact release_of_not_owner leases foreign
  · intro instant past owner other first second one oneHolds two twoHolds
    exact one_believer leases reached past one oneHolds two twoHolds

def leaderLockName : Text := text "control-leader"

def longAttempt : Attempt where
  owner := text "replica-1"
  ttl := 60000000000
  now := 1000000000

def shortAttempt : Attempt where
  owner := text "replica-1"
  ttl := 1000000000
  now := 2000000000

def rivalAttempt : Attempt where
  owner := text "replica-2"
  ttl := 60000000000
  now := 10000000000

def leaderRepo : LockRepo :=
  Backend.memstore.lockRepo (text "_system")

def leaderBook : LockBook :=
  ({} : LockBook).next leaderRepo (.attempt leaderLockName longAttempt)

theorem reachable_leaderBook : (lockCalls leaderRepo).Reachable {} leaderBook :=
  .single ⟨.attempt leaderLockName longAttempt, trivial, rfl⟩

theorem leaderLock_excludes_rival :
    (lockCalls leaderRepo).Reachable {} leaderBook ∧
      (leaderRepo.attempt leaderLockName rivalAttempt leaderBook.locks).1 = false := by
  have taken : (leaderRepo.attempt leaderLockName longAttempt ∅).1 = true := by decide +kernel
  obtain ⟨row, stored, owned, excluded⟩ :=
    (lock_excludes .memstore (text "_system") leaderLockName ∅ {} .refl).1 longAttempt taken
  refine ⟨reachable_leaderBook, ?_⟩
  refine excluded leaderBook .refl rivalAttempt ?_ ?_
  · rw [owned]
    decide
  · have expires : (leaderRepo.attempt leaderLockName longAttempt ∅).2[leaderLockName]?.map Lock.expiresAt =
        some 61000000000 := by
      decide +kernel
    rw [show (leaderRepo.attempt leaderLockName longAttempt ∅).2[leaderLockName]? = some row from stored] at expires
    rw [Option.some.inj expires]
    decide

/-- The minute the first call obtained is not over, and nobody has released
the lock. -/
theorem shorter_attempt_admits_rival :
    (leaderBook.locks[leaderLockName]?.map fun row => (row.owner, row.expiresAt)) =
        some (longAttempt.owner, 61000000000) ∧
      truncateTime rivalAttempt.now < 61000000000 ∧ rivalAttempt.owner ≠ longAttempt.owner ∧
      (leaderRepo.attempt leaderLockName rivalAttempt
        (leaderBook.next leaderRepo (.attempt leaderLockName shortAttempt)).locks).1 = true := by
  decide +kernel

end Sendplane.Postgres
