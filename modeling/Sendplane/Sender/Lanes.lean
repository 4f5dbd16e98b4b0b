import Mathlib.Logic.Function.Basic
import Sendplane.Data.System
import Sendplane.Data.Threads
import Sendplane.Memstore.Tenant

namespace Sendplane.Sender.Lanes

open Data Data.Threads Store

/-! # Claiming into the lanes

One loop reserves what two counters leave free, claims deliveries for a lane and
gives back what the claim did not use; the workers count their jobs down.  Every
access to a counter is a step of its own.
-/

structure Config where
  lanes : List (Lane × Int) := []
  claimBatch : Int := 0
  tenantConcurrency : Int := 0

def Config.withDefaults (c : Config) : Config where
  lanes := if c.lanes = [] then [(.transactional, 8), (.bulk, 32)] else c.lanes
  claimBatch := if c.claimBatch ≤ 0 then 64 else c.claimBatch
  tenantConcurrency := if c.tenantConcurrency ≤ 0 then 64 else c.tenantConcurrency

/-- The workers of a lane, and the capacity of its channel; zero if the lane has
no pool. -/
def Config.size (c : Config) (lane : Lane) : Nat :=
  ((c.lanes.lookup lane).getD 0).toNat

inductive Meter where
  | lane (lane : Lane)
  | tenant (tenant : Text)
deriving DecidableEq

def Config.limit (c : Config) : Meter → Int
  | .lane lane => c.size lane
  | .tenant _ => c.tenantConcurrency

structure Job where
  tenant : Text
  delivery : Text

abbrev Share := { n : Nat // 0 < n }

inductive Loop where
  | idle
  | laneRead (tenant : Text) (lane : Lane) (laneFree : Int)
  /-- Both counters are read, and the running campaigns are looked up. -/
  | limited (tenant : Text) (lane : Lane) (limit : Share)
  | laneReserved (tenant : Text) (lane : Lane) (limit : Share)
  | reserved (tenant : Text) (lane : Lane) (limit : Share)
  /-- The lane has its unused part back; the tenant has not. -/
  | laneReturned (tenant : Text) (lane : Lane) (unused : Nat) (deliveries : List Text)
  | dispatching (tenant : Text) (lane : Lane) (deliveries : List Text)
  /-- A delivery is given up in the lane; not yet in the tenant. -/
  | laneAbandoned (tenant : Text) (lane : Lane) (deliveries : List Text)
  | returned
deriving DecidableEq

inductive Phase where
  | idle
  | handling (job : Job)
  | handled (job : Job)
  /-- The job is counted down in the lane; not yet in the tenant. -/
  | laneReleased (job : Job)
  | exited

structure Worker where
  lane : Lane
  phase : Phase := .idle

structure State where
  inflight : Meter → Int := fun _ => 0
  queue : Lane → List Job := fun _ => []
  loop : Loop := .idle
  workers : List Worker
  cancelled : Bool := false

def State.add (m : Meter) (n : Int) (s : State) : State :=
  { s with inflight := Function.update s.inflight m (s.inflight m + n) }

inductive LoopStep where
  | loadLane (tenant : Text) (lane : Lane)
  | loadTenant
  | campaignsFail
  | reserveLane
  | reserveTenant
  | claimFails
  | claim (deliveries : List Text)
  | returnTenant
  | send
  | abandonLane
  | abandonTenant
  | claimedInto
  | finish

/-- A step of the loop.  It visits the tenants and their lanes in some order. -/
def loopStep (cfg : Config) (s : State) : LoopStep → Loop → Option State
  | .loadLane tenant lane, .idle =>
      if 0 < cfg.size lane then
        some { s with loop := .laneRead tenant lane (cfg.size lane - s.inflight (.lane lane)) }
      else none
  | .loadTenant, .laneRead tenant lane laneFree =>
      let tenantFree := cfg.tenantConcurrency - s.inflight (.tenant tenant)
      let limit := min (min laneFree tenantFree) cfg.claimBatch
      if full : limit ≤ 0 then some { s with loop := .idle }
      else some { s with loop := .limited tenant lane ⟨limit.toNat, by omega⟩ }
  | .campaignsFail, .limited _ _ _ => some { s with loop := .idle }
  | .reserveLane, .limited tenant lane limit =>
      some { s.add (.lane lane) limit.1 with loop := .laneReserved tenant lane limit }
  | .reserveTenant, .laneReserved tenant lane limit =>
      some { s.add (.tenant tenant) limit.1 with loop := .reserved tenant lane limit }
  | .claimFails, .reserved tenant lane limit =>
      some { s.add (.lane lane) (-limit.1) with loop := .laneReturned tenant lane limit [] }
  -- A claim answers no more than it was asked for.
  | .claim deliveries, .reserved tenant lane limit =>
      if limit.1 < deliveries.length then none
      else
        let unused := limit.1 - deliveries.length
        if 0 < unused then
          some { s.add (.lane lane) (-unused) with loop := .laneReturned tenant lane unused deliveries }
        else some { s with loop := .dispatching tenant lane deliveries }
  | .returnTenant, .laneReturned tenant lane unused deliveries =>
      some { s.add (.tenant tenant) (-unused) with loop := .dispatching tenant lane deliveries }
  | .send, .dispatching tenant lane (delivery :: rest) =>
      -- A send on a full channel blocks.
      if (s.queue lane).length < cfg.size lane then
        some { s with
          queue := Function.update s.queue lane (s.queue lane ++ [{ tenant, delivery }])
          loop := .dispatching tenant lane rest }
      else none
  | .abandonLane, .dispatching tenant lane (_ :: rest) =>
      if s.cancelled then some { s.add (.lane lane) (-1) with loop := .laneAbandoned tenant lane rest } else none
  | .abandonTenant, .laneAbandoned tenant lane rest =>
      some { s.add (.tenant tenant) (-1) with loop := .dispatching tenant lane rest }
  | .claimedInto, .dispatching _ _ [] => some { s with loop := .idle }
  | .finish, .idle => if s.cancelled then some { s with loop := .returned } else none
  | _, _ => none

inductive WorkerStep where
  | receive | handle | releaseLane | releaseTenant | exit

def State.setPhase (index : Nat) (worker : Worker) (phase : Phase) (s : State) : State :=
  { s with workers := s.workers.set index { worker with phase } }

def workerStep (s : State) (index : Nat) (worker : Worker) : WorkerStep → Phase → Option State
  | .receive, .idle =>
      match s.queue worker.lane with
      | [] => none
      | job :: rest =>
          some { s.setPhase index worker (.handling job) with queue := Function.update s.queue worker.lane rest }
  | .handle, .handling job => some (s.setPhase index worker (.handled job))
  | .releaseLane, .handled job => some ((s.add (.lane worker.lane) (-1)).setPhase index worker (.laneReleased job))
  | .releaseTenant, .laneReleased job => some ((s.add (.tenant job.tenant) (-1)).setPhase index worker .idle)
  -- The channels are closed when the loop has returned.
  | .exit, .idle =>
      if s.loop = .returned ∧ s.queue worker.lane = [] then some (s.setPhase index worker .exited) else none
  | _, _ => none

inductive Step where
  | loop (move : LoopStep)
  | worker (index : Nat) (move : WorkerStep)
  | cancel

def lanes (cfg : Config) : System State Step where
  step s
    | .loop move => loopStep cfg s move s.loop
    | .worker index move => s.workers[index]?.bind fun worker => workerStep s index worker move worker.phase
    | .cancel => some { s with cancelled := true }

def started (workers : List Lane) : State where
  workers := workers.map fun lane => { lane }

/-- A number of jobs of the tenant in the lane, as the meter counts them. -/
def metered (tenant : Text) (lane : Lane) (jobs : Nat) (m : Meter) : Nat :=
  if m = .lane lane ∨ m = .tenant tenant then jobs else 0

/-- What the loop has reserved or claimed, and has not given back. -/
def Loop.held (m : Meter) : Loop → Nat
  | .idle | .laneRead .. | .limited .. | .returned => 0
  | .laneReserved _ lane limit => if m = .lane lane then limit else 0
  | .reserved tenant lane limit => metered tenant lane limit m
  | .laneReturned tenant lane unused deliveries =>
      metered tenant lane deliveries.length m + if m = .tenant tenant then unused else 0
  | .dispatching tenant lane deliveries => metered tenant lane deliveries.length m
  | .laneAbandoned tenant lane deliveries =>
      metered tenant lane deliveries.length m + if m = .tenant tenant then 1 else 0

def Worker.held (m : Meter) (worker : Worker) : Nat :=
  match worker.phase with
  | .idle | .exited => 0
  | .handling job | .handled job => metered job.tenant worker.lane 1 m
  | .laneReleased job => if m = .tenant job.tenant then 1 else 0

def allLanes : List Lane := [.transactional, .bulk, .probe]

def queuedIn (m : Meter) (lane : Lane) (jobs : List Job) : Nat :=
  total (fun job => metered job.tenant lane 1 m) jobs

def State.queued (m : Meter) (s : State) : Nat :=
  total (fun lane => queuedIn m lane (s.queue lane)) allLanes

def State.held (m : Meter) (s : State) : Nat :=
  s.loop.held m + s.queued m + total (Worker.held m) s.workers

/-- What the loop has found free and means to reserve. -/
def Loop.intends (m : Meter) : Loop → Int
  | .laneRead _ lane laneFree => if m = .lane lane then laneFree else 0
  | .limited tenant lane limit => metered tenant lane limit m
  | .laneReserved tenant _ limit => if m = .tenant tenant then limit else 0
  | _ => 0

/-- The counters say what is held, and neither that nor what the loop intends is
more than there is room for. -/
structure Sound (cfg : Config) (s : State) : Prop where
  balanced : ∀ m, s.inflight m = s.held m
  bounded : ∀ m, s.inflight m ≤ cfg.limit m
  intended : ∀ m, s.inflight m + s.loop.intends m ≤ cfg.limit m

theorem queued_update (m : Meter) (s : State) (lane : Lane) (jobs : List Job) :
    total (fun other => queuedIn m other (Function.update s.queue lane jobs other)) allLanes +
        queuedIn m lane (s.queue lane) = s.queued m + queuedIn m lane jobs := by
  cases lane <;> simp [State.queued, allLanes] <;> omega

theorem metered_succ (tenant : Text) (lane : Lane) (jobs : Nat) (m : Meter) :
    metered tenant lane (jobs + 1) m = metered tenant lane jobs m + metered tenant lane 1 m := by
  unfold metered
  split <;> rfl

attribute [local simp] Loop.held Worker.held Loop.intends metered

@[simp] theorem metered_lane : metered tenant lane jobs (.lane lane) = jobs := by
  simp

@[simp] theorem metered_tenant : metered tenant lane jobs (.tenant tenant) = jobs := by
  simp

theorem forall_meter (tenant : Text) (lane : Lane) {holds : Meter → Prop} (atLane : holds (.lane lane))
    (atTenant : holds (.tenant tenant))
    (elsewhere : ∀ m, m ≠ .lane lane → m ≠ .tenant tenant → holds m) (m : Meter) : holds m := by
  by_cases sameLane : m = .lane lane
  · rw [sameLane]
    exact atLane
  · by_cases sameTenant : m = .tenant tenant
    · rw [sameTenant]
      exact atTenant
    · exact elsewhere m sameLane sameTenant

/-- How much an addition to one counter changes each of them. -/
def change (meter : Meter) (n : Int) (m : Meter) : Int :=
  if m = meter then n else 0

/-- The loop may change the counter by as much when it moves on: what it holds
changes as much, and what is added was found free before. -/
structure Fits (before after : Loop) (m : Meter) (n : Int) : Prop where
  held : (after.held m : Int) = before.held m + n
  room : n ≤ max 0 (before.intends m)
  intended : n + after.intends m ≤ max 0 (before.intends m)

section

variable (tenant : Text) (lane : Lane)

/-- The moves of the loop that add to one of the counters. -/
inductive Advances : Loop → Meter → Int → Loop → Prop where
  | reserveLane (limit : Share) :
      Advances (.limited tenant lane limit) (.lane lane) limit.1 (.laneReserved tenant lane limit)
  | reserveTenant (limit : Share) :
      Advances (.laneReserved tenant lane limit) (.tenant tenant) limit.1 (.reserved tenant lane limit)
  | returnLane {limit : Share} (deliveries : List Text) (within : deliveries.length ≤ limit.1) :
      Advances (.reserved tenant lane limit) (.lane lane) (-(limit.1 - deliveries.length : Nat))
        (.laneReturned tenant lane (limit.1 - deliveries.length) deliveries)
  | returnTenant (unused : Nat) (deliveries : List Text) :
      Advances (.laneReturned tenant lane unused deliveries) (.tenant tenant) (-unused) (.dispatching tenant lane deliveries)
  | abandonLane (delivery : Text) (rest : List Text) :
      Advances (.dispatching tenant lane (delivery :: rest)) (.lane lane) (-1) (.laneAbandoned tenant lane rest)
  | abandonTenant (rest : List Text) :
      Advances (.laneAbandoned tenant lane rest) (.tenant tenant) (-1) (.dispatching tenant lane rest)

variable {tenant lane}

theorem Advances.fits (advances : Advances tenant lane before meter n after) :
    ∀ m, Fits before after m (change meter n m) := by
  refine forall_meter tenant lane ?_ ?_ fun m offLane offTenant => ?_
  case refine_3 => cases advances <;> constructor <;> simp [change, offLane, offTenant]
  all_goals cases advances with
    | returnLane deliveries within => constructor <;> simp [change]; omega
    | _ => constructor <;> simp [change]

end

variable {cfg : Config} {s next : State}

theorem add_inflight : (s.add meter n).inflight m = s.inflight m + change meter n m := by
  by_cases same : m = meter
  · subst same
    simp [State.add, change]
  · simp [State.add, change, same]

variable {tenant : Text} {lane : Lane}

section

variable (sound : Sound cfg s)
include sound

theorem Sound.advance (phase : s.loop = before) (advances : Advances tenant lane before meter n after) :
    Sound cfg { s.add meter n with loop := after } := by
  subst phase
  have fits := advances.fits
  refine ⟨fun m => ?_, fun m => ?_, fun m => ?_⟩
  · have counted := sound.balanced m
    have held := (fits m).held
    change (s.add meter n).inflight m = ((after.held m + s.queued m + total (Worker.held m) s.workers : Nat) : Int)
    rw [add_inflight, counted, State.held]
    omega
  · have room := (fits m).room
    have below := sound.bounded m
    have wanted := sound.intended m
    rw [add_inflight]
    omega
  · have intended := (fits m).intended
    have below := sound.bounded m
    have wanted := sound.intended m
    change (s.add meter n).inflight m + after.intends m ≤ cfg.limit m
    rw [add_inflight]
    omega

theorem Sound.proceed (held : ∀ m, after.held m = s.loop.held m)
    (intended : ∀ m, s.inflight m + after.intends m ≤ cfg.limit m) : Sound cfg { s with loop := after } := by
  refine ⟨fun m => ?_, sound.bounded, intended⟩
  rw [sound.balanced m, State.held, ← held m]
  rfl

theorem Sound.rest (held : ∀ m, after.held m = s.loop.held m) (idle : ∀ m, after.intends m = 0) :
    Sound cfg { s with loop := after } := by
  refine sound.proceed held fun m => ?_
  rw [idle m, Int.add_zero]
  exact sound.bounded m

theorem sound_laneRead (phase : s.loop = .idle) :
    Sound cfg { s with loop := .laneRead tenant lane (cfg.size lane - s.inflight (.lane lane)) } := by
  refine sound.proceed (by simp [phase]) fun m => ?_
  by_cases same : m = .lane lane
  · subst same
    simp only [Loop.intends, ↓reduceIte, Config.limit]
    omega
  · simpa [same] using sound.bounded m

theorem sound_limited (phase : s.loop = .laneRead tenant lane laneFree) (within : (limit.1 : Int) ≤ laneFree)
    (free : (limit.1 : Int) ≤ cfg.tenantConcurrency - s.inflight (.tenant tenant)) :
    Sound cfg { s with loop := .limited tenant lane limit } := by
  refine sound.proceed (by simp [phase]) ?_
  refine forall_meter tenant lane ?_ ?_ fun m offLane offTenant => ?_
  · have wanted := sound.intended (.lane lane)
    simp only [phase, Loop.intends, ↓reduceIte, metered_lane] at wanted ⊢
    omega
  · simp only [Loop.intends, metered_tenant, Config.limit]
    omega
  · simpa [offLane, offTenant] using sound.bounded m

theorem sound_send (phase : s.loop = .dispatching tenant lane (delivery :: rest)) : Sound cfg { s with
      queue := Function.update s.queue lane (s.queue lane ++ [⟨tenant, delivery⟩])
      loop := .dispatching tenant lane rest } := by
  refine ⟨fun m => ?_, sound.bounded, fun m => ?_⟩
  · have moved := queued_update m s lane (s.queue lane ++ [⟨tenant, delivery⟩])
    have counted := metered_succ tenant lane rest.length m
    simp only [queuedIn, total_append, total_cons, total_nil] at moved
    simp only [sound.balanced m, State.held, State.queued, queuedIn, phase, Loop.held, List.length_cons] at moved ⊢
    omega
  · simpa using sound.bounded m

theorem loopStep_sound (stepped : loopStep cfg s move s.loop = some next) : Sound cfg next := by
  unfold loopStep at stepped
  split at stepped
  next tenant lane phase =>
    split at stepped
    · cases stepped
      exact sound_laneRead sound phase
    · cases stepped
  next tenant lane laneFree phase =>
    dsimp only at stepped
    split at stepped
    · cases stepped
      exact sound.rest (by simp [phase]) fun _ => rfl
    · cases stepped
      refine sound_limited sound phase ?_ ?_
      · dsimp only
        omega
      · dsimp only
        omega
  next tenant lane limit phase =>
    cases stepped
    exact sound.rest (by simp [phase]) fun _ => rfl
  next tenant lane limit phase =>
    cases stepped
    exact sound.advance phase (.reserveLane limit)
  next tenant lane limit phase =>
    cases stepped
    exact sound.advance phase (.reserveTenant limit)
  next tenant lane limit phase =>
    cases stepped
    exact sound.advance phase (.returnLane [] (Nat.zero_le limit.1))
  next deliveries tenant lane limit phase =>
    dsimp only at stepped
    split at stepped
    · cases stepped
    split at stepped
    · cases stepped
      exact sound.advance phase (.returnLane deliveries (by omega))
    · cases stepped
      refine sound.rest (fun m => ?_) fun _ => rfl
      have all : deliveries.length = limit.1 := by omega
      simp [phase, all]
  next tenant lane unused deliveries phase =>
    cases stepped
    exact sound.advance phase (.returnTenant unused deliveries)
  next tenant lane delivery rest phase =>
    split at stepped
    · cases stepped
      exact sound_send sound phase
    · cases stepped
  next tenant lane delivery rest phase =>
    split at stepped
    · cases stepped
      exact sound.advance phase (.abandonLane delivery rest)
    · cases stepped
  next tenant lane rest phase =>
    cases stepped
    exact sound.advance phase (.abandonTenant rest)
  next tenant lane phase =>
    cases stepped
    exact sound.rest (by simp [phase]) fun _ => rfl
  next phase =>
    split at stepped
    · cases stepped
      exact sound.rest (by simp [phase]) fun _ => rfl
    · cases stepped
  · cases stepped

end

section

variable {index : Nat} {worker : Worker} (found : s.workers[index]? = some worker)
include found

theorem held_setPhase (m : Meter) (phase : Phase) :
    (s.setPhase index worker phase).held m + worker.held m = s.held m + Worker.held m { worker with phase } := by
  have moved : total (Worker.held m) (s.workers.set index { worker with phase }) + worker.held m = _ :=
    total_set found
  simp only [State.held, State.setPhase, State.queued] at moved ⊢
  omega

theorem Sound.release (sound : Sound cfg s)
    (held : ∀ m, (Worker.held m { worker with phase } : Int) = worker.held m + change meter (-1) m) :
    Sound cfg ((s.add meter (-1)).setPhase index worker phase) := by
  have less (m : Meter) : change meter (-1) m ≤ 0 := by
    unfold change
    split <;> decide
  refine ⟨fun m => ?_, fun m => ?_, fun m => ?_⟩
  · have kept : ((s.add meter (-1)).setPhase index worker phase).held m = (s.setPhase index worker phase).held m := rfl
    have moved := held_setPhase found m phase
    have given := held m
    change (s.add meter (-1)).inflight m = _
    rw [add_inflight, sound.balanced m]
    omega
  · have fewer := less m
    have below := sound.bounded m
    change (s.add meter (-1)).inflight m ≤ _
    rw [add_inflight]
    omega
  · have fewer := less m
    have wanted := sound.intended m
    change (s.add meter (-1)).inflight m + s.loop.intends m ≤ _
    rw [add_inflight]
    omega

theorem Sound.carry (sound : Sound cfg s) (held : ∀ m, Worker.held m { worker with phase } = worker.held m) :
    Sound cfg (s.setPhase index worker phase) := by
  refine ⟨fun m => ?_, sound.bounded, sound.intended⟩
  have moved := held_setPhase found m phase
  have same := held m
  change s.inflight m = _
  rw [sound.balanced m]
  omega

theorem sound_receive (sound : Sound cfg s) (idle : worker.phase = .idle) (queued : s.queue worker.lane = job :: rest) :
    Sound cfg { s.setPhase index worker (.handling job) with queue := Function.update s.queue worker.lane rest } := by
  refine ⟨fun m => ?_, sound.bounded, sound.intended⟩
  have moved := queued_update m s worker.lane rest
  have taken : total (Worker.held m) (s.workers.set index { worker with phase := .handling job }) + worker.held m = _ :=
    total_set found
  simp only [queued, queuedIn, total_cons] at moved
  simp only [Worker.held, idle] at taken
  simp only [State.setPhase, sound.balanced m, State.held, State.queued, queuedIn] at moved ⊢
  omega

theorem workerStep_sound {move : WorkerStep} (sound : Sound cfg s)
    (stepped : workerStep s index worker move worker.phase = some next) : Sound cfg next := by
  unfold workerStep at stepped
  split at stepped
  next idle =>
    split at stepped
    · cases stepped
    next job rest queued =>
      cases stepped
      exact sound_receive found sound idle queued
  next job handling =>
    cases stepped
    exact sound.carry found fun m => by simp [handling]
  next job handled =>
    cases stepped
    refine sound.release found (forall_meter job.tenant worker.lane ?_ ?_ fun m offLane offTenant => ?_)
    · simp [handled, change]
    · simp [handled, change]
    · simp [handled, change, offLane]
  next job released =>
    cases stepped
    refine sound.release found (forall_meter job.tenant worker.lane ?_ ?_ fun m offLane offTenant => ?_)
    · simp [released, change]
    · simp [released, change]
    · simp [released, change, offTenant]
  next idle =>
    split at stepped
    · cases stepped
      exact sound.carry found fun m => by simp [idle]
    · cases stepped
  · cases stepped

end

theorem started_sound (within : 0 ≤ cfg.tenantConcurrency) : Sound cfg (started workers) := by
  have empty (m : Meter) : (started workers).held m = 0 := by
    have idle : total (Worker.held m) (started workers).workers = 0 := by
      rw [total_eq_zero_iff]
      intro worker member
      obtain ⟨lane, _, rfl⟩ := List.mem_map.mp member
      rfl
    simp only [State.held, idle]
    rfl
  refine ⟨fun m => ?_, fun m => ?_, fun m => ?_⟩
  · rw [empty m]
    rfl
  all_goals cases m with
    | lane lane => exact Int.natCast_nonneg _
    | tenant tenant => exact within

theorem sound_of_reachable (within : 0 ≤ cfg.tenantConcurrency)
    (reached : (lanes cfg).Reachable (started workers) s) : Sound cfg s := by
  apply reached.invariant
  · exact started_sound within
  · intro before label after sound _ stepped
    cases label with
    | loop move => exact loopStep_sound sound stepped
    | worker index move =>
        obtain ⟨worker, found, moved⟩ := Option.bind_eq_some_iff.mp stepped
        exact workerStep_sound found sound moved
    | cancel =>
        cases stepped
        exact ⟨sound.balanced, sound.bounded, sound.intended⟩

def Loop.unsent (m : Meter) : Loop → Nat
  | .laneReturned tenant lane _ deliveries | .dispatching tenant lane deliveries
  | .laneAbandoned tenant lane deliveries => metered tenant lane deliveries.length m
  | _ => 0

def Worker.unfinished (m : Meter) (worker : Worker) : Nat :=
  match worker.phase with
  | .handling job => metered job.tenant worker.lane 1 m
  | _ => 0

def State.unfinished (m : Meter) (s : State) : Nat :=
  s.loop.unsent m + s.queued m + total (Worker.unfinished m) s.workers

theorem unfinished_le_held (m : Meter) (s : State) : s.unfinished m ≤ s.held m := by
  have unsent : s.loop.unsent m ≤ s.loop.held m := by
    cases s.loop <;> simp [Loop.unsent]
  have working : total (Worker.unfinished m) s.workers ≤ total (Worker.held m) s.workers := by
    refine total_le fun worker => ?_
    unfold Worker.unfinished Worker.held
    cases worker.phase <;> simp
  unfold State.unfinished State.held
  omega

theorem queued_lane : s.queued (.lane lane) = (s.queue lane).length := by
  have counted (other : Lane) (jobs : List Job) :
      queuedIn (.lane lane) other jobs = if other = lane then jobs.length else 0 := by
    induction jobs with
    | nil => simp [queuedIn]
    | cons job rest ih =>
        rw [queuedIn] at ih
        rw [queuedIn, total_cons, ih]
        by_cases same : other = lane
        · simp [same]
          omega
        · simp [same, Ne.symm same]
  simp only [State.queued, counted]
  cases lane <;> simp [allLanes]

def Loop.resting : Loop → Bool
  | .idle | .laneRead .. | .limited .. | .dispatching _ _ [] | .returned => true
  | _ => false

/-- All claimed jobs are finished or abandoned, and no claim is under way. -/
structure Settled (s : State) : Prop where
  loop : s.loop.resting = true
  queue : ∀ lane, s.queue lane = []
  workers : ∀ worker ∈ s.workers, worker.phase = .idle ∨ worker.phase = .exited

theorem held_of_resting {loop : Loop} (resting : loop.resting = true) : loop.held m = 0 := by
  cases loop with
  | idle | laneRead | limited | returned => rfl
  | laneReserved | reserved | laneReturned | laneAbandoned => cases resting
  | dispatching tenant lane deliveries =>
      cases deliveries with
      | nil => simp
      | cons delivery rest => cases resting

theorem held_of_settled (settled : Settled s) : s.held m = 0 := by
  have working : total (Worker.held m) s.workers = 0 := by
    rw [total_eq_zero_iff]
    intro worker member
    rcases settled.workers worker member with idle | exited
    · simp [idle]
    · simp [exited]
  simp [State.held, -Loop.held, held_of_resting settled.loop, working, State.queued, settled.queue, queuedIn, allLanes]

/-- In every state that the loop and any number of workers reach, no lane and no
tenant has more unfinished jobs than it may, the next send finds room in the
channel, and both counters are back at zero whenever all jobs are done. -/
theorem inflight_within_capacity (c : Config) (workers : List Lane)
    (reached : (lanes c.withDefaults).Reachable (started workers) s) :
    (∀ lane, s.unfinished (.lane lane) ≤ c.withDefaults.size lane) ∧
    (∀ tenant, (s.unfinished (.tenant tenant) : Int) ≤ c.withDefaults.tenantConcurrency) ∧
    (∀ tenant lane delivery rest, s.loop = .dispatching tenant lane (delivery :: rest) →
      ((lanes c.withDefaults).step s (.loop .send)).isSome) ∧ (Settled s → ∀ m, s.inflight m = 0) := by
  have positive : 0 ≤ c.withDefaults.tenantConcurrency := by
    simp only [Config.withDefaults]
    split <;> omega
  have sound : Sound c.withDefaults s := sound_of_reachable positive reached
  have capacity (m : Meter) : (s.held m : Int) ≤ c.withDefaults.limit m := by
    rw [← sound.balanced m]
    exact sound.bounded m
  refine ⟨fun lane => ?_, fun tenant => ?_, fun tenant lane delivery rest phase => ?_, fun settled m => ?_⟩
  · have below := capacity (.lane lane)
    have held := unfinished_le_held (.lane lane) s
    simp only [Config.limit] at below
    omega
  · have below := capacity (.tenant tenant)
    have held := unfinished_le_held (.tenant tenant) s
    simp only [Config.limit] at below
    omega
  · -- The delivery in hand is counted, and is not on the channel yet.
    have below := capacity (.lane lane)
    have room : (s.queue lane).length < c.withDefaults.size lane := by
      simp only [State.held, phase, Loop.held, metered_lane, List.length_cons, queued_lane, Config.limit] at below
      omega
    simp [lanes, phase, loopStep, if_pos room]
  · rw [sound.balanced m, held_of_settled settled]
    rfl

def bulkConfig : Config where
  lanes := [(.bulk, 2)]

def claimedTwo : List Step :=
  [.loop (.loadLane (text "acme") .bulk), .loop .loadTenant, .loop .reserveLane, .loop .reserveTenant,
    .loop (.claim [text "d1", text "d2"]), .loop .send]

def busyState : State :=
  ((lanes bulkConfig.withDefaults).run (started [.bulk, .bulk]) claimedTwo).getD (started [])

theorem second_send_finds_room :
    busyState.loop = .dispatching (text "acme") .bulk [text "d2"] ∧ busyState.unfinished (.lane .bulk) = 2 ∧
      ((lanes bulkConfig.withDefaults).step busyState (.loop .send)).isSome := by
  have phase : busyState.loop = .dispatching (text "acme") .bulk [text "d2"] := by decide +kernel
  have reached : (lanes bulkConfig.withDefaults).Reachable (started [.bulk, .bulk]) busyState := by
    have completed : (lanes bulkConfig.withDefaults).run (started [.bulk, .bulk]) claimedTwo = some busyState := rfl
    exact System.reachable_of_run completed
  refine ⟨phase, by decide +kernel, ?_⟩
  exact (inflight_within_capacity bulkConfig [.bulk, .bulk] reached).2.2.1 _ _ _ _ phase

end Sendplane.Sender.Lanes
