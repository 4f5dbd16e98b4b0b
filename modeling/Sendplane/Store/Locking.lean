import Sendplane.Data.Lease
import Sendplane.Data.System
import Sendplane.Store.Records

namespace Sendplane.Store

open Data Lease Function

theorem truncateTime_le : truncateTime time ≤ time := by
  unfold truncateTime
  split
  next zero => exact le_of_eq zero.symm
  next => exact Int.ediv_mul_le time (by decide)

def holder (locks : Table Text Lock) (name : Text) : Option (Lease.Held Text Time) :=
  locks[name]?.map fun row => ⟨row.owner, row.expiresAt⟩

/-- An Acquire, or a Renew. -/
structure Attempt where
  renews : Bool := false
  owner : Text
  ttl : Duration
  now : Time

def LockRepo.attempt (repo : LockRepo) (name : Text) (request : Attempt) (locks : Table Text Lock) :
    Bool × Table Text Lock :=
  if request.renews then repo.renew name request.owner request.ttl request.now locks
  else repo.acquire name request.owner request.ttl request.now locks

def Attempt.bid (expiry : Duration → Time → Time) (request : Attempt) : Lease.Bid Text Time where
  renews := request.renews
  owner := request.owner
  now := truncateTime request.now
  expiry := expiry request.ttl request.now

/-- A granted attempt stores a row of its owner, and a refused one leaves the
rows alone. -/
def LockRepo.Settles (repo : LockRepo) (expiry : Duration → Time → Time) (name : Text) (request : Attempt)
    (locks : Table Text Lock) : Prop :=
  ∃ row : Lock, row.owner = request.owner ∧ row.expiresAt = expiry request.ttl request.now ∧
    repo.attempt name request locks =
      if Lease.granted (holder locks name) (request.bid expiry) then (true, locks.insert name row) else (false, locks)

variable {locks : Table Text Lock} {request : Attempt} {name : Text} {expiry : Duration → Time → Time}

theorem renew_iff (renews : request.renews = true) :
    granted (holder locks name) (request.bid expiry) = true ↔
      ∃ row, locks[name]? = some row ∧ row.owner = request.owner ∧ truncateTime request.now < row.expiresAt := by
  rw [renew_granted_iff (by exact renews)]
  simp only [holder, Option.map_eq_some_iff, Held.mk.injEq]
  constructor
  · rintro ⟨current, ⟨row, found, owned, rfl⟩, live⟩
    exact ⟨row, found, owned, live⟩
  · rintro ⟨row, found, owned, live⟩
    exact ⟨row.expiresAt, ⟨row, found, owned, rfl⟩, live⟩

/-- The repository plays the leases of its names; `expiry` is what a granted
attempt sets. -/
structure LockRepo.Leases (repo : LockRepo) (expiry : Duration → Time → Time) : Prop where
  settles : ∀ name request locks, repo.Settles expiry name request locks
  released : ∀ name owner locks, repo.release name owner locks =
    if (holder locks name).map Lease.Held.owner = some owner then locks.erase name else locks

/-- A call for the lock of a name. -/
inductive LockCall where
  | attempt (name : Text) (request : Attempt)
  | release (name owner : Text)

/-- The locks, what each owner of a name last obtained and has not given up,
and the clock readings that came with the attempts on a name. -/
structure LockBook where
  locks : Table Text Lock := ∅
  believes : Text → Text → Option Time := fun _ _ => none
  readings : Text → List Time := fun _ => []

namespace LockBook

def next (repo : LockRepo) (book : LockBook) : LockCall → LockBook
  | .attempt name request =>
      let (taken, locks) := repo.attempt name request book.locks
      { locks
        believes := if taken then
            Function.update book.believes name
              (Function.update (book.believes name) request.owner (locks[name]?.map Lock.expiresAt))
          else book.believes
        readings := Function.update book.readings name (request.now :: book.readings name) }
  | .release name owner =>
      { book with
        locks := repo.release name owner book.locks
        believes := Function.update book.believes name (Function.update (book.believes name) owner none) }

def ledger (book : LockBook) (name : Text) : Lease.Ledger Text Time where
  held := holder book.locks name
  believes := book.believes name
  readings := (book.readings name).map truncateTime

end LockBook

def lockCalls (repo : LockRepo) : System LockBook LockCall where
  step book call := some (book.next repo call)

/-- The owner neither releases the lock nor moves its expiry, and nobody else
obtains it at the expiry or later. -/
def LockUndisturbed (repo : LockRepo) (name owner : Text) (expiry : Time) (book : LockBook) : LockCall → Prop
  | .attempt other request =>
      other = name → (repo.attempt name request book.locks).1 = true →
        request.owner ≠ owner ∧ truncateTime request.now < expiry
  | .release other releaser => other = name → releaser ≠ owner

variable {repo : LockRepo} {expiry : Duration → Time → Time} {book : LockBook}

section

variable (leases : repo.Leases expiry)
include leases

theorem LockRepo.Leases.holder_release : holder (repo.release name owner locks) other =
      if name = other then next (holder locks name) (.release owner) else holder locks other := by
  rw [leases.released, next]
  by_cases same : name = other
  · subst same
    rw [if_pos rfl]
    split
    · simp [holder]
    · rfl
  · split
    · simp [holder, Table.get_erase, same]
    · rfl

theorem LockRepo.Leases.granted (name : Text) :
    (repo.attempt name request locks).1 = granted (holder locks name) (request.bid expiry) := by
  obtain ⟨row, _, _, result⟩ := leases.settles name request locks
  rw [result]
  split <;> simp [*]

theorem LockRepo.Leases.holder_attempt : holder (repo.attempt name request locks).2 other =
      if name = other then next (holder locks name) (.bid (request.bid expiry)) else holder locks other := by
  obtain ⟨row, owned, expires, result⟩ := leases.settles name request locks
  rw [result, next]
  split
  next =>
    rw [holder, Table.get_insert]
    split
    next => simp [owned, expires, Attempt.bid]
    next => rfl
  next =>
    split
    next same => rw [same]
    next => rfl

theorem LockRepo.Leases.holder_granted (taken : (repo.attempt name request locks).1 = true) :
    holder (repo.attempt name request locks).2 name = some ⟨request.owner, expiry request.ttl request.now⟩ := by
  rw [leases.holder_attempt, if_pos rfl, next, ← leases.granted, if_pos taken]
  rfl

theorem ledger_attempt : (book.next repo (.attempt called request)).ledger name =
      if called = name then (book.ledger name).next (.bid (request.bid expiry)) else book.ledger name := by
  by_cases same : called = name
  · subst same
    simp only [LockBook.next, LockBook.ledger, Ledger.next, update_self, leases.holder_attempt, ← leases.granted]
    congr 1
    split
    next taken =>
      have row := leases.holder_granted taken
      simp only [holder, Option.map_eq_some_iff, Held.mk.injEq] at row
      obtain ⟨row, found, _, expires⟩ := row
      simp [found, expires, Attempt.bid]
    next => rfl
  · simp only [LockBook.next, LockBook.ledger, leases.holder_attempt, if_neg same, update_of_ne (Ne.symm same)]
    congr 1
    split
    next => rw [update_of_ne (Ne.symm same)]
    next => rfl

theorem ledger_release : (book.next repo (.release called owner)).ledger name =
      if called = name then (book.ledger name).next (.release owner) else book.ledger name := by
  by_cases same : called = name
  · subst same
    simp [LockBook.next, LockBook.ledger, Ledger.next, leases.holder_release]
  · simp [LockBook.next, LockBook.ledger, leases.holder_release, same, update_of_ne (Ne.symm same)]

theorem sound_of_reachable (reached : (lockCalls repo).Reachable { locks := start } book) (name : Text) :
    (book.ledger name).Sound := by
  apply reached.invariant
  · intro owner expires believed
    cases believed
  · intro before call after sound _ stepped
    cases stepped
    cases call with
    | attempt called request =>
        rw [ledger_attempt leases]
        split
        · exact sound.next _
        · exact sound
    | release called owner =>
        rw [ledger_release leases]
        split
        · exact sound.next _
        · exact sound

end

section

variable (leases : repo.Leases expiry)
include leases

theorem holder_of_undisturbed (held : holder book.locks name = some ⟨owner, expires⟩)
    (reached : (lockCalls repo).Reaches (LockUndisturbed repo name owner expires) book later) :
    holder later.locks name = some ⟨owner, expires⟩ := by
  apply reached.invariant
  · exact held
  · intro before call after held undisturbed stepped
    cases stepped
    cases call with
    | attempt called request =>
        change holder (repo.attempt called request before.locks).2 name = _
        rw [leases.holder_attempt]
        split
        next same =>
          subst same
          rw [held]
          refine next_of_undisturbed fun taken => undisturbed rfl ?_
          rwa [leases.granted, held]
        next => exact held
    | release called releaser =>
        change holder (repo.release called releaser before.locks) name = _
        rw [leases.holder_release]
        split
        next same =>
          subst same
          rw [held]
          exact next_of_undisturbed (undisturbed rfl)
        next => exact held

theorem refused_of_undisturbed (held : holder book.locks name = some ⟨owner, expires⟩)
    (reached : (lockCalls repo).Reaches (LockUndisturbed repo name owner expires) book later)
    (foreign : request.owner ≠ owner) (early : truncateTime request.now < expires) :
    (repo.attempt name request later.locks).1 = false := by
  rw [leases.granted, holder_of_undisturbed leases held reached]
  exact refused_of_held foreign early

theorem renewed_iff (request : Attempt) (renews : request.renews = true) :
    (repo.attempt name request locks).1 = true ↔
      ∃ row, locks[name]? = some row ∧ row.owner = request.owner ∧ truncateTime request.now < row.expiresAt := by
  rw [leases.granted, renew_iff renews]

theorem release_of_not_owner (foreign : ∀ row, locks[name]? = some row → row.owner ≠ owner) :
    repo.release name owner locks = locks := by
  rw [leases.released, if_neg]
  intro owned
  simp only [holder, Option.map_map, Option.map_eq_some_iff] at owned
  obtain ⟨row, found, same⟩ := owned
  exact foreign row found same

theorem one_believer (reached : (lockCalls repo).Reachable { locks := start } book)
    (past : ∀ reading ∈ book.readings name, reading ≤ instant) (one : book.believes name owner = some first)
    (oneHolds : instant < first) (two : book.believes name other = some second) (twoHolds : instant < second) :
    owner = other := by
  refine (sound_of_reachable leases reached name).one_believer ?_ one oneHolds two twoHolds
  intro reading read
  obtain ⟨raw, taken, rfl⟩ := List.mem_map.mp read
  exact le_trans truncateTime_le (past raw taken)

end

end Sendplane.Store
