import Sendplane.Sender.Health

namespace Sendplane.Sender

open Data Store HealthTracker

inductive HealthCall where
  | fail (errorClass : ErrorClass) (now : Time)
  | success (now : Time)
deriving DecidableEq

namespace HealthCall

def now : HealthCall → Time
  | .fail _ now | .success now => now

def apply (key : Text) (h : HealthTracker) : HealthCall → Option TransportStatus × HealthTracker
  | .fail errorClass now => h.fail key errorClass now
  | .success now => h.success key now

/-- The authentication failures since the last success. -/
def count (failures : Int) : HealthCall → Int
  | .fail .auth _ => failures + 1
  | .fail _ _ => failures
  | .success _ => 0

end HealthCall

/-- A tracker with the history of one transport: the last call, the entries into
cooldown and the authentication failures since the last success. -/
structure Circuit where
  tracker : HealthTracker
  clock : Time
  entered : List Time := []
  authFailures : Int := 0

namespace Circuit

variable (key : Text)

/-- The call moves the circuit into the status. -/
def Enters (status : TransportStatus) (before after : HealthTracker) : Prop :=
  (before.state key).status ≠ status ∧ (after.state key).status = status

instance (status : TransportStatus) (before after : HealthTracker) : Decidable (Enters key status before after) :=
  inferInstanceAs (Decidable (_ ∧ _))

def system : System Circuit HealthCall where
  step s call :=
    let tracker := (call.apply key s.tracker).2
    if call.now < s.clock then none
    else some {
      tracker
      clock := call.now
      entered := if Enters key .cooldown s.tracker tracker then call.now :: s.entered else s.entered
      authFailures := call.count s.authFailures }

variable {key}

@[simp]
theorem state_put (h : HealthTracker) : (h.put key th).state key = th := by
  simp [put, state]

/-- What one call does to a transport. -/
structure Moves (h : HealthTracker) (call : HealthCall) (reply : Option TransportStatus)
    (before after : TransportHealth) : Prop where
  failures : after.failures = call.count before.failures
  reply : reply = if after.status = before.status then none else some after.status
  unhealthy : after.status = .unhealthy → before.status = .unhealthy ∨ h.threshold ≤ after.failures
  pruned : ∀ time ∈ before.rateLimits, time ∈ after.rateLimits ∨ time + h.rateLimitWindow ≤ call.now
  cooldown : after.status = .cooldown → before.status = .cooldown ∨
    before.status = .healthy ∧ call.now ∈ after.rateLimits
  healthy : after.status = .healthy → before.status = .healthy ∨ after.rateLimits = [] ∨
    before.status = .unhealthy ∧ call = .success call.now

theorem kept_or_old (times : List Time) (now : Time) (window : Duration) :
    ∀ time ∈ times, time ∈ pruneRateLimits times now window ∨ time + window ≤ now := by
  intro time member
  simp only [pruneRateLimits, List.mem_filter, member, decide_eq_true_eq, true_and]
  exact (le_or_gt (now - window) time).imp_right fun older => (Int.add_lt_of_lt_sub_right older).le

theorem moves (key : Text) (h : HealthTracker) (call : HealthCall) :
    Moves h call (call.apply key h).1 (h.state key) ((call.apply key h).2.state key) := by
  have pruned := kept_or_old (h.state key).rateLimits call.now h.rateLimitWindow
  -- one goal for each way through the two functions
  cases call <;> simp only [HealthCall.apply, fail, success] <;> repeat' split
  all_goals constructor <;> grind [HealthCall.count, HealthCall.now, state_put]

@[simp]
theorem apply_window (call : HealthCall) :
    (call.apply key h).2.rateLimitWindow = h.rateLimitWindow ∧ (call.apply key h).2.threshold = h.threshold := by
  cases call <;> simp only [HealthCall.apply, fail, success] <;> repeat' split
  all_goals exact ⟨rfl, rfl⟩

/-- A success does not close an open circuit within a window of an entry into
cooldown. -/
def Settled (key : Text) (s : Circuit) (call : HealthCall) : Prop :=
  (s.tracker.state key).status = .unhealthy → call = .success call.now →
    ∀ time ∈ s.entered, time + s.tracker.rateLimitWindow ≤ call.now

instance (key : Text) (s : Circuit) (call : HealthCall) : Decidable (Settled key s call) :=
  inferInstanceAs (Decidable (_ → _ → ∀ time ∈ s.entered, _))

variable {h : HealthTracker} {s next : Circuit} {call : HealthCall}

/-- A cooldown less than a window ago is still among the recorded replies. -/
structure Sound (key : Text) (h : HealthTracker) (s : Circuit) : Prop where
  window : s.tracker.rateLimitWindow = h.rateLimitWindow
  threshold : s.tracker.threshold = h.threshold
  failures : (s.tracker.state key).failures = s.authFailures
  recent : ∀ time ∈ s.entered, time ∈ (s.tracker.state key).rateLimits ∨ time + h.rateLimitWindow ≤ s.clock

theorem sound_step (sound : Sound key h s) (stepped : (system key).step s call = some next) : Sound key h next := by
  simp only [system, Option.ite_none_left_eq_some, not_lt, Option.some.injEq] at stepped
  obtain ⟨late, rfl⟩ := stepped
  have moved := moves key s.tracker call
  refine ⟨by simp [sound.window], by simp [sound.threshold], by rw [moved.failures, sound.failures], ?_⟩
  intro time member
  have known : time ∈ s.entered → time ∈ ((call.apply key s.tracker).2.state key).rateLimits ∨
      time + h.rateLimitWindow ≤ call.now := by
    intro earlier
    rcases sound.recent time earlier with kept | old
    · exact sound.window ▸ moved.pruned time kept
    · exact .inr (old.trans late)
  dsimp only at member
  split at member <;> rename_i enters
  · rcases List.mem_cons.mp member with rfl | earlier
    · exact .inl ((moved.cooldown enters.2).resolve_left enters.1).2
    · exact known earlier
  · exact known member

/-- The entries into cooldown so far are a window apart, and the next one will be. -/
structure Spaced (key : Text) (h : HealthTracker) (s : Circuit) : Prop extends Sound key h s where
  apart : s.entered.Pairwise fun later earlier => earlier + h.rateLimitWindow ≤ later
  clear : (s.tracker.state key).status = .healthy → ∀ time ∈ s.entered, time + h.rateLimitWindow ≤ s.clock

theorem spaced_step (spaced : Spaced key h s) (settled : Settled key s call)
    (stepped : (system key).step s call = some next) : Spaced key h next := by
  have sound := sound_step spaced.toSound stepped
  simp only [system, Option.ite_none_left_eq_some, not_lt, Option.some.injEq] at stepped
  obtain ⟨late, rfl⟩ := stepped
  have moved := moves key s.tracker call
  refine ⟨sound, ?_, ?_⟩
  · dsimp only
    split <;> rename_i enters
    · have healthy := ((moved.cooldown enters.2).resolve_left enters.1).1
      exact List.pairwise_cons.mpr ⟨fun time member => (spaced.clear healthy time member).trans late, spaced.apart⟩
    · exact spaced.apart
  · intro healthy time member
    have stays : ¬ Enters key .cooldown s.tracker (call.apply key s.tracker).2 := fun enters => by
      simp [enters.2] at healthy
    rcases moved.healthy healthy with was | empty | ⟨unhealthy, success⟩
    · simp only [stays, ↓reduceIte] at member
      exact (spaced.clear was time member).trans late
    · exact (sound.recent time member).resolve_left (by simp [empty])
    · simp only [stays, ↓reduceIte] at member
      exact spaced.window ▸ settled unhealthy success time member

/-- A circuit opens only after enough failed logins in a row, and every call
reports the change it makes.  Two entries into cooldown are a window apart if no
success closes an open circuit sooner. -/
theorem circuit_lawful (key : Text) (h : HealthTracker) (clock : Time) (fresh : h.state key = {}) :
    (∀ s call next, (system key).Reachable ⟨h, clock, [], 0⟩ s → (system key).step s call = some next →
      (Enters key .unhealthy s.tracker next.tracker → h.threshold ≤ next.authFailures) ∧
      (call.apply key s.tracker).1 = if (next.tracker.state key).status = (s.tracker.state key).status then none
        else some (next.tracker.state key).status) ∧ ∀ s, (system key).Reaches (Settled key) ⟨h, clock, [], 0⟩ s →
      s.entered.Pairwise fun later earlier => earlier + h.rateLimitWindow ≤ later := by
  have initial : Sound key h ⟨h, clock, [], 0⟩ := ⟨rfl, rfl, by simp [fresh], by simp⟩
  constructor
  · intro s call next reached stepped
    have sound := reached.invariant initial fun _ _ _ sound _ => sound_step sound
    have later := sound_step sound stepped
    simp only [system, Option.ite_none_left_eq_some, not_lt, Option.some.injEq] at stepped
    obtain ⟨_, rfl⟩ := stepped
    have moved := moves key s.tracker call
    refine ⟨fun enters => ?_, moved.reply⟩
    exact later.failures ▸ sound.threshold ▸ (moved.unhealthy enters.2).resolve_left enters.1
  · intro s reached
    have spaced : Spaced key h ⟨h, clock, [], 0⟩ := ⟨initial, .nil, by simp⟩
    exact (reached.invariant spaced fun _ _ _ spaced settled => spaced_step spaced settled).apart

/-- Three refusals cool the transport down, three failed logins open its circuit
and a success closes it; the next refusal cools it down again. -/
def flapping : List HealthCall :=
  [.fail .rateLimited 0, .fail .rateLimited 0, .fail .rateLimited 0, .fail .auth 0, .fail .auth 0, .fail .auth 0,
    .success 0, .fail .rateLimited 1]

theorem success_forgets_cooldown :
    ∃ s, (system (text "t")).Reachable ⟨{}, 0, [], 0⟩ s ∧ s.entered = [1, 0] ∧ ¬ (0 + s.tracker.rateLimitWindow ≤ 1) := by
  have ran : ((system (text "t")).run ⟨{}, 0, [], 0⟩ flapping).map
      (fun s => (s.entered, s.tracker.rateLimitWindow)) = some ([1, 0], minute) := by decide +kernel
  obtain ⟨s, completed, same⟩ := Option.map_eq_some_iff.mp ran
  simp only [Prod.mk.injEq] at same
  exact ⟨s, System.reachable_of_run completed, same.1, by rw [same.2]; decide⟩

/-- As above, but the success comes a window later, and so does the next refusal. -/
def settledRun : List HealthCall :=
  [.fail .rateLimited 0, .fail .rateLimited 0, .fail .rateLimited 0, .success 5, .fail .auth 5, .fail .auth 5,
    .fail .auth 5, .success minute, .fail .rateLimited minute]

theorem settled_cooldowns_spaced :
    ∃ s, (system (text "t")).Reaches (Settled (text "t")) ⟨{}, 0, [], 0⟩ s ∧ s.entered = [minute, 0] ∧
      s.entered.Pairwise fun later earlier => earlier + minute ≤ later := by
  have ran : ((system (text "t")).run ⟨{}, 0, [], 0⟩ settledRun).map Circuit.entered = some [minute, 0] := by decide +kernel
  obtain ⟨s, completed, entered⟩ := Option.map_eq_some_iff.mp ran
  have reached := System.reaches_of_run
    (show (system (text "t")).Guarded (Settled (text "t")) ⟨{}, 0, [], 0⟩ settledRun by decide +kernel) completed
  exact ⟨s, reached, entered, (circuit_lawful (text "t") {} 0 (by simp [HealthTracker.state])).2 s reached⟩

end Circuit

end Sendplane.Sender
