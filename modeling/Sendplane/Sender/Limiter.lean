import Mathlib.Algebra.Order.Field.Rat
import Sendplane.Data.Reservoir
import Sendplane.Sender.Process

namespace Sendplane.Sender

open Data Store Reservoir List
open Sender.Process (Key)

/-! # The rate limiter

The token buckets of one replica.  Instants and durations are seconds, as exact
rationals: the rounding of floating point and of durations to nanoseconds is not
modelled.
-/

def recoveryPerMinute : Rat := 1 / 10

def minShareFraction : Rat := 1 / 64

structure Bucket where
  /-- The part of this replica in the rate of the cluster. -/
  share : Rat := 0
  /-- The rate that is applied, less than the share while penalized. -/
  rate : Rat := 0
  tokens : Rat := 0
  last : Rat
  penalized : Bool := false
  started : Bool := false

namespace Bucket

variable (b : Bucket)

/-- One second of capacity, and at least one message. -/
def burst : Rat :=
  if b.rate < 1 then 1 else b.rate

/-- A fresh bucket starts full; one that is not penalized follows its share. -/
def setShare (share : Rat) : Bucket :=
  let b := { b with share }
  if !b.started then
    let b := { b with rate := share, started := true }
    { b with tokens := b.burst }
  else if !b.penalized then { b with rate := share }
  else if b.rate ≥ share then { b with rate := share, penalized := false }
  else b

def recover (elapsed : Rat) : Bucket :=
  if b.penalized && b.rate < b.share then
    let b := { b with rate := b.rate * (1 + recoveryPerMinute * (elapsed / 60)) }
    if b.rate ≥ b.share then { b with rate := b.share, penalized := false } else b
  else b

def advance (now : Rat) : Bucket :=
  if now < b.last then b
  else
    let elapsed := now - b.last
    let b := { b with last := now }
    if elapsed ≤ 0 then b
    else
      let b := b.recover elapsed
      let b := { b with tokens := b.tokens + b.rate * elapsed }
      if b.tokens > b.burst then { b with tokens := b.burst } else b

def waitFor : Rat :=
  if b.tokens ≥ 1 ∨ b.rate ≤ 0 then 0
  else (1 - b.tokens) / b.rate

def spend : Bucket := { b with tokens := b.tokens - 1 }

def penalize (now : Rat) : Bucket :=
  let b := b.advance now
  let floor := b.share * minShareFraction
  let b := { b with rate := max (b.rate / 2) floor, penalized := true }
  if b.tokens > 1 then { b with tokens := 1 } else b

variable {b} {share : Rat}

/-- In use, and not penalized. -/
def Steady (b : Bucket) : Prop :=
  b.started = true ∧ b.penalized = false

theorem steady_setShare_fresh (now share : Rat) : Steady (setShare { last := now } share) :=
  ⟨rfl, rfl⟩

theorem Steady.setShare_eq (steady : Steady b) : b.setShare share = { b with share, rate := share } := by
  simp [setShare, steady.1, steady.2]

theorem Steady.advance_eq (steady : Steady b) : b.advance now = if now ≤ b.last then b
      else { b with last := now, tokens := min b.burst (b.tokens + b.rate * (now - b.last)) } := by
  unfold advance
  by_cases early : now < b.last
  · rw [if_pos early, if_pos early.le]
  · rw [if_neg early]
    by_cases same : now ≤ b.last
    · have stands : now = b.last := le_antisymm same (not_lt.mp early)
      simp [stands]
    · rw [if_neg same]
      have elapsed : ¬ now - b.last ≤ 0 := fun past => same (sub_nonpos.mp past)
      simp only [elapsed, steady.2, gt_iff_lt]
      by_cases full : burst { b with last := now } < b.tokens + b.rate * (now - b.last)
      · have capped : min b.burst (b.tokens + b.rate * (now - b.last)) = b.burst := min_eq_left (le_of_lt full)
        rw [capped]
        exact if_pos full
      · have kept : min b.burst (b.tokens + b.rate * (now - b.last)) = b.tokens + b.rate * (now - b.last) :=
          min_eq_right (not_lt.mp full)
        rw [kept]
        exact if_neg full

theorem Steady.advance (steady : Steady b) (now : Rat) : Steady (b.advance now) := by
  rw [steady.advance_eq]
  split
  · exact steady
  · exact steady

theorem Steady.setShare (steady : Steady b) (share : Rat) : Steady (b.setShare share) := by
  rw [steady.setShare_eq]
  exact steady

theorem burst_eq_max (b : Bucket) : b.burst = max 1 b.rate := by
  unfold burst
  split
  case isTrue slow => exact (max_eq_left slow.le).symm
  case isFalse fast => exact (max_eq_right (not_lt.mp fast)).symm

/-- The bucket is a reservoir that fills at its share. -/
structure Holds (share : Rat) (b : Bucket) (pool : Reservoir (max 1 share)) : Prop where
  steady : Steady b
  rate : b.rate = share
  tokens : b.tokens = pool.tokens
  last : b.last = pool.last

theorem holds_fresh (now share : Rat) : Holds share (setShare { last := now } share) (.full now) where
  steady := steady_setShare_fresh now share
  rate := rfl
  tokens := burst_eq_max _
  last := rfl

theorem Holds.setShare (holds : Holds share b pool) : Holds share (b.setShare share) pool := by
  rw [holds.steady.setShare_eq]
  exact ⟨holds.steady, rfl, holds.tokens, holds.last⟩

theorem Holds.advance (holds : Holds share b pool) (now : Rat) : Holds share (b.advance now) (pool.refill share now) := by
  rw [holds.steady.advance_eq, refill, holds.last]
  split
  · exact holds
  · refine ⟨holds.steady, holds.rate, ?_, rfl⟩
    rw [burst_eq_max, holds.rate, holds.tokens]
    rfl

end Bucket

structure Limiter where
  buckets : Table Text Bucket := ∅

def replicas (workers : Option Int) : Rat :=
  match workers with
  | none => 1
  | some n => if n > 1 then n else 1

theorem replicas_pos : 0 < replicas workers := by
  unfold replicas
  split
  · exact zero_lt_one
  · split
    case isTrue many => exact_mod_cast zero_lt_one.trans many
    · exact zero_lt_one

namespace Limiter

variable (l : Limiter)

def bucketLocked (name : Text) (now : Rat) : Bucket :=
  (l.buckets[name]?).getD { last := now }

def put (name : Text) (b : Bucket) : Limiter :=
  { l with buckets := l.buckets.insert name b }

def found (name : Text) (share now : Rat) : Bucket :=
  ((l.bucketLocked name now).setShare share).advance now

structure Entered where
  limiter : Limiter
  wait : Rat := 0
  active : List Text := []

def limited (k : Key) : Bool :=
  !(k.rate ≤ 0 || k.name = [])

def enter (now : Rat) (workers : Option Int) (e : Entered) (k : Key) : Entered :=
  if limited k then
    let b := e.limiter.found k.name (k.rate / replicas workers) now
    { limiter := e.limiter.put k.name b
      wait := if b.waitFor > e.wait then b.waitFor else e.wait
      active := e.active ++ [k.name] }
  else e

def leave (instant : Rat) (l : Limiter) (name : Text) : Limiter :=
  { l with buckets := l.buckets.modify name fun b => (b.advance instant).spend }

/-- Takes one token from each limited bucket; answers the time that the caller
has to wait before using them. -/
def reserve (keys : List Key) (now : Rat) (workers : Option Int) : Rat × Limiter :=
  let e := keys.foldl (enter now workers) { limiter := l }
  (e.wait, e.active.foldl (leave (now + e.wait)) e.limiter)

def penalize (names : List Text) (now : Rat) : Limiter :=
  names.foldl (fun l name => { l with buckets := l.buckets.modify name fun b => b.penalize now }) l

structure Call where
  keys : List Key
  now : Rat
  workers : Option Int := none

def Call.share (c : Call) (k : Key) : Rat :=
  k.rate / replicas c.workers

/-- The call takes at most one token from the bucket, which has a constant share. -/
def Call.Draws (name : Text) (share : Rat) (c : Call) : Prop :=
  (c.keys.map Key.name).count name ≤ 1 ∧ ∀ k ∈ c.keys, k.name = name → c.share k = share

def answer (c : Call) : Rat × Limiter :=
  l.reserve c.keys c.now c.workers

def release (c : Call) : Rat :=
  c.now + (l.answer c).1

def run (calls : List Call) : Limiter :=
  calls.foldl (fun l c => (l.answer c).2) l

def trace (l : Limiter) : List Call → List (Rat × Rat)
  | [] => []
  | c :: rest => (c.now, l.release c) :: trace (l.answer c).2 rest

variable {l} {name : Text} {instant : Rat}

theorem le_wait_enter : e.wait ≤ (enter now workers e k).wait := by
  unfold enter
  split
  · dsimp only
    split
    case isTrue longer => exact le_of_lt longer
    · exact le_rfl
  · exact le_rfl

theorem le_wait_foldl (keys : List Key) (e : Entered) : e.wait ≤ (keys.foldl (enter now workers) e).wait := by
  induction keys generalizing e with
  | nil => exact le_rfl
  | cons k rest ih => exact le_wait_enter.trans (ih _)

theorem reserve_wait_nonneg (l : Limiter) (keys : List Key) : 0 ≤ (l.reserve keys now workers).1 :=
  le_wait_foldl keys { limiter := l }

variable {k : Key}

theorem enter_other (other : ¬ (limited k = true ∧ k.name = name)) :
    (enter now workers e k).limiter.buckets[name]? = e.limiter.buckets[name]? ∧
      (enter now workers e k).active.count name = e.active.count name := by
  unfold enter
  split
  case isTrue limits =>
    have distinct : k.name ≠ name := fun same => other ⟨limits, same⟩
    exact ⟨Table.get_insert_ne distinct, by simp [distinct]⟩
  · exact ⟨rfl, rfl⟩

theorem enter_others (e : Entered) {keys : List Key} (others : ∀ k ∈ keys, ¬ (limited k = true ∧ k.name = name)) :
    (keys.foldl (enter now workers) e).limiter.buckets[name]? = e.limiter.buckets[name]? ∧
      (keys.foldl (enter now workers) e).active.count name = e.active.count name := by
  induction keys generalizing e with
  | nil => exact ⟨rfl, rfl⟩
  | cons k rest ih =>
      obtain ⟨first, others⟩ := forall_mem_cons.mp others
      obtain ⟨kept, counted⟩ := enter_other first
      obtain ⟨keeps, counts⟩ := ih (enter now workers e k) others
      exact ⟨keeps.trans kept, counts.trans counted⟩

theorem leave_foldl (names : List Text) (l : Limiter) :
    (names.foldl (leave instant) l).buckets[name]? =
      (l.buckets[name]?).map (fun b => (b.advance instant).spend)^[names.count name] := by
  induction names generalizing l with
  | nil => simp
  | cons other rest ih =>
      rw [foldl_cons, ih, leave, Table.get_modify]
      by_cases same : other = name
      · rw [if_pos same, same, count_cons_self, Function.iterate_succ, Option.map_map]
      · rw [if_neg same, count_cons_of_ne same]

theorem reserve_other (l : Limiter) {keys : List Key} (others : ∀ k ∈ keys, ¬ (limited k = true ∧ k.name = name)) :
    (l.reserve keys now workers).2.buckets[name]? = l.buckets[name]? := by
  obtain ⟨kept, counted⟩ := enter_others { limiter := l } others
  rw [reserve, leave_foldl, kept, counted]
  simp

theorem reserve_used (l : Limiter) (now : Rat) (workers : Option Int) {earlier later : List Key}
    (limits : limited k = true) (before : ∀ k' ∈ earlier, k'.name ≠ k.name) (after : ∀ k' ∈ later, k'.name ≠ k.name) :
    (l.reserve (earlier ++ k :: later) now workers).2.buckets[k.name]? =
      some (((l.found k.name (k.rate / replicas workers) now).advance
        (now + (l.reserve (earlier ++ k :: later) now workers).1)).spend) := by
  have unused : ∀ keys : List Key, (∀ k' ∈ keys, k'.name ≠ k.name) →
      ∀ k' ∈ keys, ¬ (limited k' = true ∧ k'.name = k.name) :=
    fun keys others k' member used => others k' member used.2
  obtain ⟨kept, counted⟩ := enter_others { limiter := l } (unused earlier before)
  obtain ⟨keeps, counts⟩ := enter_others
    (enter now workers (earlier.foldl (enter now workers) { limiter := l }) k) (unused later after)
  have same : (earlier.foldl (enter now workers) { limiter := l }).limiter.found k.name (k.rate / replicas workers) now =
      l.found k.name (k.rate / replicas workers) now := by
    rw [found, found, bucketLocked, bucketLocked, kept]
  rw [reserve, leave_foldl, foldl_append, foldl_cons, keeps, counts, enter, if_pos limits]
  simp only [put, count_append, counted, same]
  simp

variable {share : Rat} {pool : Option (Reservoir (max 1 share))} {c : Call}

variable (share name) in
/-- The bucket of a name is a reservoir, once there is one. -/
def Tracks (l : Limiter) (pool : Option (Reservoir (max 1 share))) : Prop :=
  Option.Rel (Bucket.Holds share) l.buckets[name]? pool

theorem tracks_new : Tracks name share {} none := by
  exact .none

theorem Tracks.found (tracks : Tracks name share l pool) (now : Rat) :
    Bucket.Holds share (l.found name share now) ((pool.getD (.full now)).refill share now) := by
  unfold Tracks at tracks
  unfold Limiter.found bucketLocked
  refine Bucket.Holds.advance ?_ now
  generalize l.buckets[name]? = stored at tracks ⊢
  cases tracks with
  | none => exact Bucket.holds_fresh now share
  | some holds => exact holds.setShare

theorem Tracks.other (tracks : Tracks name share l pool)
    (others : ∀ k ∈ c.keys, ¬ (limited k = true ∧ k.name = name)) : Tracks name share (l.answer c).2 pool := by
  unfold Tracks
  rw [answer, reserve_other l others]
  exact tracks

theorem Tracks.used (tracks : Tracks name share l pool) (draws : c.Draws name share) (member : k ∈ c.keys)
    (limits : limited k = true) (named : k.name = name) :
    Tracks name share (l.answer c).2 (some (drawFrom share pool c.now (l.answer c).1)) := by
  obtain ⟨once, shares⟩ := draws
  obtain ⟨earlier, later, split⟩ := append_of_mem member
  have unused : ∀ k' ∈ earlier ++ later, k'.name ≠ k.name := by
    rw [split, map_append, map_cons, count_append, named, count_cons_self] at once
    have none : ((earlier ++ later).map Key.name).count name = 0 := by
      rw [map_append, count_append]
      omega
    intro k' among same
    exact count_eq_zero.mp none (mem_map.mpr ⟨k', among, same.trans named⟩)
  obtain ⟨before, after⟩ := forall_mem_append.mp unused
  have stored := reserve_used l c.now c.workers limits before after
  have shared : k.rate / replicas c.workers = share := shares k member named
  have holds := (tracks.found c.now).advance (c.now + (l.answer c).1)
  unfold Tracks
  rw [answer, split, ← named, stored, named, shared, ← split]
  refine .some ⟨holds.steady, holds.rate, ?_, holds.last⟩
  change ((l.found name share c.now).advance (c.now + (l.answer c).1)).tokens - 1 = _
  rw [holds.tokens]
  rfl

theorem limited_of_share (filling : 0 < share) (named : name ≠ []) (same : k.name = name)
    (shared : c.share k = share) : limited k = true := by
  have positive : 0 < k.rate := by
    rw [← shared] at filling
    by_contra unlimited
    exact absurd filling (div_nonpos_of_nonpos_of_nonneg (not_lt.mp unlimited) (replicas_pos).le).not_gt
  simp [limited, positive, same, named]

theorem answer_single (filling : 0 < share) (named : name ≠ []) (single : c.keys = [k]) (same : k.name = name)
    (shared : c.share k = share) (follows : (l.found name share c.now).rate = share) :
    (l.answer c).1 = shortage share (l.found name share c.now).tokens := by
  have limits := limited_of_share filling named same shared
  have waits : (l.found name share c.now).waitFor = shortage share (l.found name share c.now).tokens := by
    rw [Bucket.waitFor, follows, shortage]
    simp [filling.not_ge]
  have nonneg := shortage_nonneg filling (l.found name share c.now).tokens
  unfold Call.share at shared
  simp only [answer, reserve, single, foldl_cons, enter, limits, same, shared, waits, ↓reduceIte]
  split
  · rfl
  case isFalse none => exact le_antisymm nonneg (not_lt.mp none)

/-- The call asks for a token of the one bucket, with a constant share. -/
def Call.Single (name : Text) (share : Rat) (c : Call) : Prop :=
  ∃ k, c.keys = [k] ∧ k.name = name ∧ c.share k = share

theorem Call.Single.draws (single : c.Single name share) : c.Draws name share := by
  obtain ⟨k, keys, named, shared⟩ := single
  refine ⟨?_, ?_⟩
  · rw [keys]
    exact count_le_length
  · intro k' member _
    rw [keys, mem_singleton] at member
    rw [member, shared]

theorem Tracks.single (filling : 0 < share) (named : name ≠ []) (tracks : Tracks name share l pool)
    (single : c.Single name share) :
    l.release c = (pool.getD (.full c.now)).release share c.now ∧
      Tracks name share (l.answer c).2 (some ((pool.getD (.full c.now)).take share c.now)) := by
  have found := tracks.found c.now
  obtain ⟨k, keys, same, shared⟩ := single
  have answered := answer_single filling named keys same shared found.rate
  rw [found.tokens] at answered
  have limits := limited_of_share filling named same shared
  have used := tracks.used (Call.Single.draws ⟨k, keys, same, shared⟩) (k := k) (by rw [keys]; exact mem_cons_self)
    limits same
  rw [answered] at used
  exact ⟨by rw [release, answered, Reservoir.release], used⟩

variable {calls : List Call}

theorem Tracks.trace {pool : Reservoir (max 1 share)} (filling : 0 < share) (named : name ≠ [])
    (tracks : Tracks name share l (some pool)) (singles : ∀ c ∈ calls, c.Single name share) :
    l.trace calls = pool.trace share (calls.map Call.now) := by
  induction calls generalizing l pool with
  | nil => rfl
  | cons c rest ih =>
      obtain ⟨single, singles⟩ := forall_mem_cons.mp singles
      obtain ⟨released, next⟩ := tracks.single filling named single
      rw [Limiter.trace, released, ih next singles]
      rfl

theorem trace_new (filling : 0 < share) (named : name ≠ []) (singles : ∀ c ∈ calls, c.Single name share)
    (first : Rat) (begins : ∀ c ∈ calls.head?, c.now = first) :
    trace {} calls = (full first : Reservoir (max 1 share)).trace share (calls.map Call.now) := by
  cases calls with
  | nil => rfl
  | cons c rest =>
      obtain ⟨single, singles⟩ := forall_mem_cons.mp singles
      obtain ⟨released, next⟩ := tracks_new.single filling named single
      obtain rfl : c.now = first := begins c rfl
      rw [trace, released, next.trace filling named singles]
      rfl

/-- The releases of a bucket keep to its burst and rate in every window of time
exactly if no call reads the clock before the release of an earlier call. -/
theorem reserve_bounded_iff (filling : 0 < share) (named : name ≠ []) {calls : List Call}
    (singles : ∀ c ∈ calls, c.Single name share) (forward : (calls.map Call.now).Pairwise (· ≤ ·)) :
    (∀ start length : Rat, 0 ≤ length →
        (((trace {} calls).countP fun entry => start ≤ entry.2 ∧ entry.2 < start + length : Nat) : Rat) ≤
          max 1 share + share * length) ↔ (trace {} calls).Pairwise fun earlier later => earlier.2 ≤ later.1 := by
  cases calls with
  | nil =>
      have room : ∀ length : Rat, 0 ≤ length → 0 ≤ max 1 share + share * length := fun length onward =>
        add_nonneg (zero_le_one.trans (le_max_left 1 share)) (mul_nonneg filling.le onward)
      simpa [trace] using room
  | cons c rest =>
      have traced := trace_new filling named singles c.now (by simp)
      have onward : (c.now :: (c :: rest).map Call.now).Pairwise (· ≤ ·) := by
        refine pairwise_cons.mpr ⟨forall_mem_cons.mpr ⟨le_rfl, ?_⟩, forward⟩
        exact (pairwise_cons.mp forward).1
      have empty : Bounded share (max 1 share) [] := fun _ length onward => by
        simpa using add_nonneg (zero_le_one.trans (le_max_left 1 share)) (mul_nonneg filling.le onward)
      have bounded := (paced_full (le_max_left 1 share)).bounded_iff filling (le_max_left 1 share) empty onward
      simpa [traced, Bounded, Function.comp_def] using bounded

theorem reserve_bounded_spaced :
    let calls : List Call := [⟨[⟨text "t", 1⟩], 0, none⟩, ⟨[⟨text "t", 1⟩], 1 / 2, none⟩]
    ∀ start length : Rat, 0 ≤ length →
      (((trace {} calls).countP fun entry => start ≤ entry.2 ∧ entry.2 < start + length : Nat) : Rat) ≤
        max 1 1 + 1 * length := by
  intro calls
  have singles : ∀ c ∈ calls, c.Single (text "t") 1 := by
    simp [calls, Call.Single, Call.share, replicas]
  exact (reserve_bounded_iff (by decide) (by decide) singles (by decide +kernel)).mpr (by decide +kernel)

/-- Three calls at one reading of the clock: the second and the third are
released together. -/
theorem concurrent_overrun :
    let calls : List Call := [⟨[⟨text "t", 1⟩], 0, none⟩, ⟨[⟨text "t", 1⟩], 0, none⟩, ⟨[⟨text "t", 1⟩], 0, none⟩]
    (trace {} calls).map Prod.snd = [0, 1, 1] ∧
      ¬ (((trace {} calls).countP fun entry => 0 ≤ entry.2 ∧ entry.2 < 0 + 3 / 2 : Nat) : Rat) ≤
        max 1 1 + 1 * (3 / 2) := by
  decide +kernel

variable (name) in
/-- Each call that names the bucket reads the clock after the instant that the
bucket was brought to. -/
def InTurn : Limiter → List Call → Prop
  | _, [] => True
  | l, c :: rest =>
      (name ∈ c.keys.map Key.name → ∀ b ∈ l.buckets[name]?, b.last ≤ c.now) ∧ InTurn (l.answer c).2 rest

instance decidableInTurn : ∀ l calls, Decidable (InTurn name l calls)
  | _, [] => .isTrue trivial
  | l, c :: rest =>
      have := decidableInTurn (l.answer c).2 rest
      inferInstanceAs (Decidable (_ ∧ _))

theorem Tracks.standsBy (tracks : Tracks name share l pool)
    (turn : ∀ b ∈ l.buckets[name]?, b.last ≤ now) : StandsBy pool now := by
  unfold Tracks at tracks
  generalize l.buckets[name]? = stored at tracks turn
  cases tracks with
  | none => simp [StandsBy]
  | some holds =>
      rintro opened ⟨⟩
      rw [← holds.last]
      exact turn _ rfl

theorem Tracks.found_level (filling : 0 < share) (tracks : Tracks name share l pool)
    (stands : StandsBy pool now) : (l.found name share now).tokens = levelOf share pool now := by
  rw [(tracks.found now).tokens, refill_tokens, max_eq_right stands.getD, level_getD filling.le le_rfl]

theorem delay_le (filling : 0 < share) (named : name ≠ []) {last : Call} (single : last.Single name share)
    (tracks : Tracks name share l pool) (tracks' : Tracks name share l' pool')
    (trails : Trails share pool pool') (draws : ∀ c ∈ calls, c.Draws name share)
    (turns : InTurn name l (calls ++ [last])) (turns' : InTurn name l' (calls ++ [last])) :
    (l'.run calls).release last ≤ (l.run calls).release last + 1 / share := by
  induction calls generalizing l l' pool pool' with
  | nil =>
      obtain ⟨k, keys, same, shared⟩ := single
      have uses : name ∈ last.keys.map Key.name := by
        rw [keys, ← same]
        exact mem_cons_self
      have stands := tracks.standsBy (turns.1 uses)
      have stands' := tracks'.standsBy (turns'.1 uses)
      have later := trails.shortage_le filling stands stands'
      change last.now + (l'.answer last).1 ≤ last.now + (l.answer last).1 + 1 / share
      rw [answer_single filling named keys same shared (tracks.found _).rate,
        answer_single filling named keys same shared (tracks'.found _).rate, tracks.found_level filling stands,
        tracks'.found_level filling stands']
      linarith
  | cons c rest ih =>
      obtain ⟨draw, draws⟩ := forall_mem_cons.mp draws
      obtain ⟨turn, turns⟩ := turns
      obtain ⟨turn', turns'⟩ := turns'
      by_cases uses : ∃ k ∈ c.keys, limited k = true ∧ k.name = name
      · obtain ⟨k, member, limits, same⟩ := uses
        have mentioned : name ∈ c.keys.map Key.name := mem_map.mpr ⟨k, member, same⟩
        exact ih (tracks.used draw member limits same) (tracks'.used draw member limits same)
          (trails.drawFrom filling.le (reserve_wait_nonneg l c.keys) (reserve_wait_nonneg l' c.keys)
            (tracks.standsBy (turn mentioned)) (tracks'.standsBy (turn' mentioned))) draws turns turns'
      · have others : ∀ k ∈ c.keys, ¬ (limited k = true ∧ k.name = name) := fun k member used => uses ⟨k, member, used⟩
        exact ih (tracks.other others) (tracks'.other others) trails draws turns turns'

/-- Every bucket is steady as long as nothing is penalized. -/
def AllSteady (l : Limiter) : Prop :=
  ∀ (name : Text) (b : Bucket), l.buckets[name]? = some b → b.Steady

theorem allSteady_new : AllSteady {} := by
  intro name b stored
  cases stored

theorem AllSteady.setShare (steady : AllSteady l) (name : Text) (share now : Rat) :
    ((l.bucketLocked name now).setShare share).Steady ∧ ((l.bucketLocked name now).setShare share).rate = share := by
  unfold bucketLocked
  cases stored : l.buckets[name]? with
  | none => exact ⟨Bucket.steady_setShare_fresh now share, rfl⟩
  | some b =>
      have kept := steady name b stored
      exact ⟨kept.setShare share, by rw [Option.getD_some, kept.setShare_eq]⟩

theorem AllSteady.found (steady : AllSteady l) (name : Text) (share now : Rat) :
    (l.found name share now).Steady ∧ (l.found name share now).rate = share := by
  obtain ⟨kept, rate⟩ := steady.setShare name share now
  refine ⟨kept.advance now, ?_⟩
  rw [Limiter.found, kept.advance_eq]
  split
  · exact rate
  · exact rate

theorem AllSteady.answer (steady : AllSteady l) (c : Call) : AllSteady (l.answer c).2 := by
  have entered : ∀ (keys : List Key) (e : Entered), AllSteady e.limiter →
      AllSteady (keys.foldl (enter c.now c.workers) e).limiter := by
    intro keys
    induction keys with
    | nil => exact fun _ steady => steady
    | cons k rest ih =>
        intro e steady
        refine ih _ ?_
        unfold enter
        split
        · intro name b stored
          simp only [put, Table.get_insert] at stored
          split at stored
          · cases stored
            exact (steady.found _ _ _).1
          · exact steady name b stored
        · exact steady
  intro name b stored
  rw [Limiter.answer, reserve, leave_foldl, Option.map_eq_some_iff] at stored
  obtain ⟨b, stored, rfl⟩ := stored
  have kept := entered c.keys { limiter := l } steady name b stored
  generalize (count name _) = times
  induction times with
  | zero => exact kept
  | succ times ih =>
      rw [Function.iterate_succ_apply']
      exact ih.advance _

theorem AllSteady.run (steady : AllSteady l) (calls : List Call) : AllSteady (l.run calls) := by
  induction calls generalizing l with
  | nil => exact steady
  | cons c rest ih => exact ih (steady.answer c)

theorem Tracks.run (tracks : Tracks name share l pool) (draws : ∀ c ∈ calls, c.Draws name share) :
    ∃ pool, Tracks name share (l.run calls) pool := by
  induction calls generalizing l pool with
  | nil => exact ⟨pool, tracks⟩
  | cons c rest ih =>
      obtain ⟨draw, draws⟩ := forall_mem_cons.mp draws
      by_cases uses : ∃ k ∈ c.keys, limited k = true ∧ k.name = name
      · obtain ⟨k, member, limits, same⟩ := uses
        exact ih (tracks.used draw member limits same) draws
      · exact ih (tracks.other fun k member used => uses ⟨k, member, used⟩) draws

/-- One call more delays a later call for the bucket by at most one token,
exactly if that call finds the tokens for it; it does wherever the calls after
the one more read the clock after the instant that the bucket was brought to. -/
theorem delay_le_iff (filling : 0 < share) (named : name ≠ []) (before after : List Call) (extra : Call) {last : Call}
    (single : last.Single name share) :
    ((run {} (before ++ extra :: after)).release last ≤ (run {} (before ++ after)).release last + 1 / share ↔
      min 0 (((run {} (before ++ after)).found name share last.now).tokens - 1) ≤
        ((run {} (before ++ extra :: after)).found name share last.now).tokens) ∧
    ((∀ c ∈ before ++ extra :: after, c.Draws name share) →
      InTurn name (run {} before) (after ++ [last]) → InTurn name (run {} (before ++ [extra])) (after ++ [last]) →
      (run {} (before ++ extra :: after)).release last ≤ (run {} (before ++ after)).release last + 1 / share) := by
  have steady := fun calls => (allSteady_new.run calls).found name share last.now
  constructor
  · obtain ⟨k, keys, same, shared⟩ := single
    rw [← shortage_le_iff filling, release, release, answer_single filling named keys same shared (steady _).2,
      answer_single filling named keys same shared (steady _).2, add_assoc, add_le_add_iff_left]
  · intro draws turns turns'
    obtain ⟨first, rest⟩ := forall_mem_append.mp draws
    obtain ⟨more, rest⟩ := forall_mem_cons.mp rest
    obtain ⟨pool, tracks⟩ := tracks_new.run first
    have split : ∀ calls more, run {} (calls ++ more) = (run {} calls).run more := fun calls more =>
      foldl_append
    rw [split before [extra]] at turns'
    rw [split, split]
    by_cases uses : ∃ k ∈ extra.keys, limited k = true ∧ k.name = name
    · obtain ⟨k, member, limits, used⟩ := uses
      exact delay_le filling named single tracks (tracks.used more member limits used)
        (trails_drawFrom filling.le (reserve_wait_nonneg _ extra.keys)) rest turns turns'
    · exact delay_le filling named single tracks (tracks.other fun k member used => uses ⟨k, member, used⟩)
        (trails_refl pool) rest turns turns'

/-- The domain holds a message back for a hundred seconds, during which the
transport gets no tokens: the second call after it is two seconds late. -/
theorem held_back_starves :
    let domain : Key := ⟨text "t|d", 1 / 100⟩
    let transport : Key := ⟨text "t", 1⟩
    let before : List Call := [⟨[domain], 0, none⟩]
    let extra : Call := ⟨[transport, domain], 0, none⟩
    let after : List Call := [⟨[transport], 1, none⟩]
    let last : Call := ⟨[transport], 2, none⟩
    ((run {} before).found transport.name 1 0).waitFor = 0 ∧ ((run {} before).answer extra).1 = 100 ∧
      (run {} (before ++ after)).release last = 2 ∧ (run {} (before ++ extra :: after)).release last = 4 := by
  decide +kernel

theorem delay_le_in_turn :
    let domain : Key := ⟨text "t|d", 1 / 100⟩
    let transport : Key := ⟨text "t", 1⟩
    let before : List Call := [⟨[domain], 0, none⟩]
    let extra : Call := ⟨[transport, domain], 0, none⟩
    let after : List Call := [⟨[transport], 100, none⟩]
    let last : Call := ⟨[transport], 101, none⟩
    (run {} (before ++ extra :: after)).release last ≤ (run {} (before ++ after)).release last + 1 / 1 := by
  intro domain transport before extra after last
  have single : last.Single (text "t") 1 := ⟨transport, rfl, rfl, by decide +kernel⟩
  have draws : ∀ c ∈ before ++ extra :: after, c.Draws (text "t") 1 := by
    unfold Call.Draws
    decide +kernel
  exact (delay_le_iff (by decide) (by decide) before after extra single).2 draws (by decide +kernel) (by decide +kernel)

end Limiter

end Sendplane.Sender
