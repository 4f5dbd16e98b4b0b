import Sendplane.Postgres.Lock

namespace Sendplane.Control.Leader

open Data Store Postgres Function

inductive Phase where
  | waiting
  | leading
  /-- The loops have been told to stop and still run. -/
  | stopping
  | stopped
deriving DecidableEq

def Phase.runs : Phase → Bool
  | .leading | .stopping => true
  | .waiting | .stopped => false

/-- A replica runs its loops from the grant of the lease until they have ended. -/
structure Election where
  book : LockBook := {}
  phase : Text → Phase := fun _ => .waiting

def Election.become (s : Election) (owner : Text) (phase : Phase) : Election :=
  { s with phase := update s.phase owner phase }

/-- An Acquire or a Renew may come back with an error, whether or not it was `executed`. -/
inductive Move where
  | lock (renews : Bool) (owner : Text) (now : Time) (executed answered : Bool)
  | shutdown (owner : Text)
  | loopsDone (owner : Text)
  | release (owner : Text) (executed : Bool)

def election (repo : LockRepo) (ttl : Text → Duration) : System Election Move where
  step s
    | .lock renews owner now executed answered =>
        if s.phase owner = (if renews then .leading else .waiting) ∧ (answered → executed) then
          let request : Attempt := ⟨renews, owner, ttl owner, truncateTime now⟩
          let taken := answered && (repo.attempt leaderLockName request s.book.locks).1
          let book := if executed then s.book.next repo (.attempt leaderLockName request) else s.book
          some ({ s with book }.become owner (if taken then .leading else if renews then .stopping else .waiting))
        else none
    | .shutdown owner => if s.phase owner = .leading then some (s.become owner .stopping) else none
    | .loopsDone owner => if s.phase owner = .stopping then some (s.become owner .stopped) else none
    | .release owner executed =>
        if s.phase owner = .stopped then
          let book := if executed then s.book.next repo (.release leaderLockName owner) else s.book
          some ({ s with book }.become owner .waiting)
        else none

/-- Whoever runs its loops has been granted a lease. -/
structure Sound (repo : LockRepo) (start : Table Text Lock) (s : Election) : Prop where
  calls : (lockCalls repo).Reachable { locks := start } s.book
  granted : ∀ owner, (s.phase owner).runs → s.book.believes leaderLockName owner ≠ none

variable {repo : LockRepo} {s : Election} {start : Table Text Lock}

theorem believes_attempt (leases : repo.Leases expiry) {request : Attempt} {book : LockBook}
    (granted : (repo.attempt name request book.locks).1 = true ∧ owner = request.owner ∨ book.believes name owner ≠ none) :
    (book.next repo (.attempt name request)).believes name owner ≠ none := by
  by_cases taken : (repo.attempt name request book.locks).1 = true
  · have row := leases.holder_granted taken
    simp only [holder, Option.map_eq_some_iff] at row
    obtain ⟨row, found, _⟩ := row
    by_cases same : owner = request.owner
    · simp [LockBook.next, taken, found, same]
    · simpa [LockBook.next, taken, same] using granted
  · simpa [LockBook.next, taken] using granted

theorem Sound.become (sound : Sound repo start s)
    (justified : phase.runs → s.book.believes leaderLockName owner ≠ none) :
    Sound repo start (s.become owner phase) := by
  refine ⟨sound.calls, fun other running => ?_⟩
  by_cases same : other = owner
  · subst same
    exact justified (by simpa [Election.become] using running)
  · exact sound.granted other (by simpa [Election.become, same] using running)

theorem sound_step (leases : repo.Leases expiry) (sound : Sound repo start s)
    (stepped : (election repo ttl).step s move = some next) : Sound repo start next := by
  cases move <;> simp only [election, Option.ite_none_right_eq_some, Option.some.injEq] at stepped <;>
    obtain ⟨phase, rfl⟩ := stepped
  case shutdown owner => exact sound.become fun _ => sound.granted owner (phase ▸ rfl)
  case loopsDone => exact sound.become nofun
  case release owner executed =>
    cases executed with
    | false => exact sound.become nofun
    | true =>
        refine Sound.become ⟨sound.calls.tail ⟨.release leaderLockName owner, trivial, rfl⟩, fun other running => ?_⟩ nofun
        have apart : other ≠ owner := by
          rintro rfl
          simp [phase, Phase.runs] at running
        simpa [LockBook.next, apart] using sound.granted other running
  case lock renews owner now executed answered =>
    obtain ⟨phase, seen⟩ := phase
    have led (running : (if renews then Phase.stopping else .waiting).runs) : (s.phase owner).runs := by
      cases renews with
      | false => cases running
      | true => exact phase ▸ rfl
    cases executed with
    | false =>
        obtain rfl : answered = false := by simpa using seen
        exact sound.become fun running => sound.granted owner (led running)
    | true =>
        let request : Attempt := ⟨renews, owner, ttl owner, truncateTime now⟩
        have after : Sound repo start { s with book := s.book.next repo (.attempt leaderLockName request) } :=
          ⟨sound.calls.tail ⟨.attempt leaderLockName request, trivial, rfl⟩,
            fun other running => believes_attempt leases (.inr (sound.granted other running))⟩
        refine after.become fun running => ?_
        split at running
        next taken => exact believes_attempt leases (.inl ⟨(Bool.and_eq_true _ _ ▸ taken).2, rfl⟩)
        · exact after.granted owner (led running)

/-- The stored lock names the owner, unless somebody has come with a reading of the
clock at or after the end of its lease. -/
def Election.Holds (s : Election) (owner : Text) : Prop :=
  ∃ expires, s.book.believes leaderLockName owner = some expires ∧
    ((∃ late ∈ s.book.readings leaderLockName, expires ≤ truncateTime late) ∨
      holder s.book.locks leaderLockName = some ⟨owner, expires⟩)

/-- A replica whose loops run holds the lock, up to a reading of the clock that has
passed the end of its lease. -/
theorem running_holds_lock (backend : Backend) (tenant : Text) (ttl : Text → Duration) (start : Table Text Lock)
    (s : Election) (reached : (election (backend.lockRepo tenant) ttl).Reachable { book := { locks := start } } s)
    (owner : Text) (running : (s.phase owner).runs) : s.Holds owner := by
  obtain ⟨expiry, leases⟩ := backend.leases tenant
  have sound : Sound (backend.lockRepo tenant) start s := by
    apply reached.invariant
    · exact ⟨.refl, nofun⟩
    · exact fun _ _ _ sound _ => sound_step leases sound
  obtain ⟨expires, believed⟩ := Option.ne_none_iff_exists'.mp (sound.granted owner running)
  refine ⟨expires, believed, or_iff_not_imp_left.mpr fun early => ?_⟩
  refine sound_of_reachable leases sound.calls leaderLockName owner expires believed fun reading read => ?_
  obtain ⟨late, taken, rfl⟩ := List.mem_map.mp read
  exact not_le.mp fun ended => early ⟨late, taken, ended⟩

def elected : Election where
  book := leaderBook
  phase := update (fun _ => .waiting) longAttempt.owner .leading

theorem elected_holds_lock : (elected.phase longAttempt.owner).runs ∧ elected.Holds longAttempt.owner :=
  ⟨rfl, running_holds_lock .memstore (text "_system") (fun _ => longAttempt.ttl) ∅ elected
    (.single ⟨.lock false longAttempt.owner longAttempt.now true true, trivial, rfl⟩) _ rfl⟩

end Sendplane.Control.Leader
