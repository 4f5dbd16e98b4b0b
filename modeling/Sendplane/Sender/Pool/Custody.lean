import Sendplane.Sender.Pool

namespace Sendplane.Sender.Pool

open Data Data.Threads Store State Call Function List

def tokenIn (key : Text) (call : Call) : Nat :=
  if call.token = some key then 1 else 0

def busyIn (key : Text) (call : Call) : Nat :=
  if call.busy = some key then 1 else 0

attribute [local simp] tokenIn busyIn Call.token Call.busy Call.conns

theorem busyIn_le_tokenIn (call : Call) : busyIn key call ≤ tokenIn key call := by
  cases call <;> simp

/-- Every token in the semaphore belongs to a call, and the idle connections fit
beside those that are dialed or checked out. -/
structure Counted (group : Text → Group) (calls : List Call) : Prop where
  tokens : ∀ key, total (tokenIn key) calls = (group key).held
  limit : ∀ key, (group key).held ≤ (group key).limit
  bound : ∀ key, (group key).idle.length + total (busyIn key) calls ≤ (group key).limit

theorem State.group_setGroup (s : State) : (s.setGroup key g).group = update s.group key g := by
  funext other
  rw [group, setGroup, Table.get_insert]
  by_cases same : key = other
  · simp [same]
  · simp [same, Ne.symm same, group]

namespace Counted

variable {group : Text → Group} {calls after : List Call} {before : Call}

section

variable (counted : Counted group calls)
include counted

theorem move (member : before ∈ calls) (tokens : ∀ key, total (tokenIn key) after = tokenIn key before)
    (busy : ∀ key, total (busyIn key) after ≤ busyIn key before) : Counted group (replace calls before after) := by
  refine ⟨?_, counted.limit, ?_⟩
  · intro key
    have moved := total_replace (tokenIn key) after member
    have same := tokens key
    have held := counted.tokens key
    omega
  · intro key
    have moved := total_replace (busyIn key) after member
    have below := busy key
    have bound := counted.bound key
    omega

theorem update (tokens : ∀ other, other ≠ key → total (tokenIn other) after = total (tokenIn other) calls)
    (busy : ∀ other, other ≠ key → total (busyIn other) after ≤ total (busyIn other) calls)
    (held : total (tokenIn key) after = g.held) (limit : g.held ≤ g.limit)
    (bound : g.idle.length + total (busyIn key) after ≤ g.limit) : Counted (update group key g) after := by
  constructor <;> intro other <;> by_cases same : other = key
  · rwa [same, update_self]
  · rw [update_of_ne same, tokens other same]
    exact counted.tokens other
  · rwa [same, update_self]
  · rw [update_of_ne same]
    exact counted.limit other
  · rwa [same, update_self]
  · have before := counted.bound other
    have kept := busy other same
    rw [update_of_ne same]
    omega

theorem change (member : before ∈ calls)
    (tokens : ∀ other, other ≠ key → total (tokenIn other) after = tokenIn other before)
    (busy : ∀ other, other ≠ key → total (busyIn other) after ≤ busyIn other before)
    (held : g.held + tokenIn key before = (group key).held + total (tokenIn key) after) (limit : g.held ≤ g.limit)
    (bound : g.idle.length + total (busyIn key) (replace calls before after) ≤ g.limit) :
    Counted (Function.update group key g) (replace calls before after) := by
  refine counted.update (fun other same => ?_) (fun other same => ?_) ?_ limit bound
  · have moved := total_replace (tokenIn other) after member
    have kept := tokens other same
    omega
  · have moved := total_replace (busyIn other) after member
    have kept := busy other same
    omega
  · have moved := total_replace (tokenIn key) after member
    have tokens := counted.tokens key
    omega

theorem shrink (held : g.held = (group key).held) (limit : (group key).limit ≤ g.limit)
    (idle : g.idle.length ≤ (group key).idle.length) : Counted (Function.update group key g) calls := by
  have below := counted.limit key
  have bound := counted.bound key
  refine counted.update (fun _ _ => rfl) (fun _ _ => Nat.le_refl _) ?_ (by omega) (by omega)
  rw [held]
  exact counted.tokens key

theorem start (token : call.token = none) (busy : call.busy = none) : Counted group (call :: calls) := by
  refine ⟨?_, counted.limit, ?_⟩ <;> intro key
  · rw [total_cons, tokenIn, token, counted.tokens key]
    simp
  · rw [total_cons, busyIn, busy]
    simpa using counted.bound key

end

end Counted

/-- Idle connections are those of the group and of its version. -/
def Homed (group : Text → Group) : Prop :=
  ∀ key, ∀ c ∈ (group key).idle, c.group = key ∧ c.version = (group key).version

variable {key : Text} {group : Text → Group} {g : Group}

theorem Homed.update (homed : Homed group) (idle : ∀ c ∈ g.idle, c.group = key ∧ c.version = g.version) :
    Homed (update group key g) := by
  intro other c member
  by_cases same : other = key
  · subst same
    rw [update_self] at member ⊢
    exact idle c member
  · rw [update_of_ne same] at member ⊢
    exact homed other c member

/-- An open connection is in one place, and a closed one in none. -/
structure Kept (group : Text → Group) (calls : List Call) (taken live opened : List Conn) : Prop where
  custody : ∀ c, live.count c =
    (group c.group).idle.count c + total (fun call => call.conns.count c) calls + taken.count c
  once : live.Nodup
  known : ∀ c ∈ live, c ∈ opened

theorem count_idle_update (g : Group) (c : Conn) (before : ∀ c ∈ (group key).idle, c.group = key)
    (after : ∀ c ∈ g.idle, c.group = key) :
    (update group key g c.group).idle.count c + (group key).idle.count c =
      (group c.group).idle.count c + g.idle.count c := by
  by_cases same : c.group = key
  · rw [same, update_self]
    omega
  · rw [update_of_ne same, count_eq_zero.mpr fun member => same (before c member),
      count_eq_zero.mpr fun member => same (after c member)]

namespace Kept

variable {group : Text → Group} {calls after : List Call} {g : Group}
variable {taken taken' live live' opened opened' : List Conn}

section

variable (kept : Kept group calls taken live opened)
include kept

theorem start (empty : call.conns = []) : Kept group (call :: calls) taken live opened := by
  refine ⟨?_, kept.once, kept.known⟩
  intro c
  rw [kept.custody c, total_cons, empty]
  simp

theorem change (member : before ∈ calls)
    (balance : ∀ c, live'.count c + (group c.group).idle.count c + before.conns.count c + taken.count c =
      live.count c + (group' c.group).idle.count c + total (fun call => call.conns.count c) after + taken'.count c)
    (once : live'.Nodup) (known : ∀ c ∈ live', c ∈ opened') :
    Kept group' (replace calls before after) taken' live' opened' := by
  refine ⟨?_, once, known⟩
  intro c
  have moved := total_replace (fun call => call.conns.count c) after member
  have custody := kept.custody c
  have balance := balance c
  omega

theorem move (member : before ∈ calls)
    (conns : ∀ c, total (fun call => call.conns.count c) after = before.conns.count c) :
    Kept group (replace calls before after) taken live opened := by
  refine kept.change member ?_ kept.once kept.known
  intro c
  rw [conns c]

theorem close (member : before ∈ calls) (first : before.conns = c :: rest)
    (others : ∀ c, total (fun call => call.conns.count c) after = rest.count c) :
    Kept group (replace calls before after) taken (live.diff [c]) opened := by
  refine kept.change member ?_ kept.once.diff fun c member => kept.known c (diff_subset live _ member)
  intro other
  have held := weight_le_total (fun call => call.conns.count other) member
  have custody := kept.custody other
  rw [count_diff, others other]
  simp only [first, count_cons, count_nil] at held ⊢
  omega

end

theorem pop (old found : List Conn) (kept : Kept group calls taken live opened) (member : before ∈ calls)
    (home : ∀ c ∈ (group key).idle, c.group = key) (parts : (group key).idle = old ++ (found ++ g.idle))
    (empty : before.conns = []) (conns : ∀ c, total (fun call => call.conns.count c) after = found.count c) :
    Kept (update group key g) (replace calls before after) taken (live.diff old) opened := by
  have left : ∀ c ∈ g.idle, c.group = key := by
    intro c member
    apply home c
    simp [parts, member]
  refine kept.change member ?_ kept.once.diff fun c member => kept.known c (diff_subset live _ member)
  intro c
  have idle := count_idle_update g c home left
  have custody := kept.custody c
  rw [count_diff, conns c, empty, count_nil]
  rw [parts, count_append, count_append] at idle
  omega

theorem shelve (kept : Kept group calls taken live opened)
    (idle : ∀ c, (group' c.group).idle.count c + taken'.count c = (group c.group).idle.count c + taken.count c) :
    Kept group' calls taken' live opened := by
  refine ⟨?_, kept.once, kept.known⟩
  intro c
  have custody := kept.custody c
  have idle := idle c
  omega

end Kept

/-- Every open connection has one place, and every token a call. -/
structure Sound (cfg : PoolConfig) (s : State) : Prop where
  counted : Counted s.group s.calls
  homed : Homed s.group
  kept : Kept s.group s.calls s.shutdown.conns s.live s.opened
  gets : ∀ get ∈ s.gets, get.c.version = get.version ∧ get.sent < cfg.maxMsgsPerConn

variable {cfg : PoolConfig} {s next : State}

theorem sound_move {after : List Call} (sound : Sound cfg s) (member : before ∈ s.calls)
    (tokens : ∀ key, total (tokenIn key) after = tokenIn key before)
    (busy : ∀ key, total (busyIn key) after ≤ busyIn key before)
    (conns : ∀ c, total (fun call => call.conns.count c) after = before.conns.count c) :
    Sound cfg (s.become before after) :=
  ⟨sound.counted.move member tokens busy, sound.homed, sound.kept.move member conns, sound.gets⟩

variable {call : Call}

theorem sound_start (sound : Sound cfg s) (token : call.token = none) (busy : call.busy = none)
    (conns : call.conns = []) : Sound cfg (s.start call) :=
  ⟨sound.counted.start token busy, sound.homed, sound.kept.start conns, sound.gets⟩

theorem sound_setGroup (sound : Sound cfg s) (grouped : next.groups = (s.setGroup key g).groups)
    (idle : ∀ c ∈ g.idle, c.group = key ∧ c.version = g.version) (counted : Counted (update s.group key g) next.calls)
    (kept : Kept (update s.group key g) next.calls next.shutdown.conns next.live next.opened)
    (gets : ∀ get ∈ next.gets, get.c.version = get.version ∧ get.sent < cfg.maxMsgsPerConn) : Sound cfg next := by
  have group : next.group = update s.group key g := by
    rw [← group_setGroup]
    funext other
    rw [group, grouped, group]
  rw [← group] at counted kept
  refine ⟨counted, ?_, kept, gets⟩
  rw [group]
  exact sound.homed.update idle

theorem sound_groupFor (sound : Sound cfg s) : Sound cfg (groupFor s t) := by
  unfold groupFor
  cases found : s.groups[t.id]? with
  | some g => exact sound
  | none =>
      have absent : s.group t.id = {} := by rw [group, found]; rfl
      refine sound_setGroup sound rfl nofun ?_ (sound.kept.shelve fun c => ?_) sound.gets
      · exact sound.counted.shrink (by rw [absent]; rfl) (by rw [absent]; exact Nat.zero_le _) (Nat.zero_le _)
      · have idle := count_idle_update (newGroup t) c (fun c member => (sound.homed t.id c member).1) nofun
        rw [absent] at idle
        exact congrArg (· + s.shutdown.conns.count c) idle

theorem reuse_spec (now : Time) : (∀ c old left, reuse cfg s now idle = (some c, old, left) →
      idle = old ++ c :: left ∧ expired cfg s now c = false) ∧
    ∀ old left, reuse cfg s now idle = (none, old, left) → idle = old ∧ left = [] := by
  induction idle with
  | nil =>
      constructor
      · nofun
      · rintro old left ⟨⟩
        exact ⟨rfl, rfl⟩
  | cons first rest ih =>
      rcases inner : reuse cfg s now rest with ⟨found, older, left⟩
      rw [inner] at ih
      by_cases old : expired cfg s now first
      · simp only [reuse, inner, old]
        constructor
        · rintro c _ _ ⟨⟩
          obtain ⟨parts, fresh⟩ := ih.1 c older left rfl
          exact ⟨congrArg (first :: ·) parts, fresh⟩
        · rintro _ _ ⟨⟩
          obtain ⟨parts, none⟩ := ih.2 older left rfl
          exact ⟨congrArg (first :: ·) parts, none⟩
      · simp only [reuse, old, Bool.false_eq_true]
        constructor
        · rintro c _ _ ⟨⟩
          exact ⟨rfl, by simpa using old⟩
        · nofun

variable {version : Int}

theorem sound_dialing (sound : Sound cfg s) (member : .acquired key version ∈ s.calls) (empty : g.idle = [])
    (held : g.held = (s.group key).held) (limit : g.limit = (s.group key).limit) :
    Sound cfg (((s.setGroup key g).close (s.group key).idle).become (.acquired key version) [.dialing key version]) := by
  have below := sound.counted.limit key
  refine sound_setGroup sound rfl (by rw [empty]; nofun) ?_ ?_ sound.gets
  · refine sound.counted.change member ?_ ?_ ?_ (by omega) ?_
    · simp
    · intro other differs
      simp [Ne.symm differs]
    · simp [held]
    · -- Every call that is busy has a token, and this one had it before.
      have busy : total (busyIn key) (replace s.calls (.acquired key version) [.dialing key version]) ≤ _ :=
        total_le busyIn_le_tokenIn
      have moved := total_replace (tokenIn key) [.dialing key version] member
      have same : total (tokenIn key) [.dialing key version] = tokenIn key (.acquired key version) := by
        simp
      have tokens := sound.counted.tokens key
      rw [empty, length_nil]
      omega
  · refine sound.kept.pop _ [] member (fun c member => (sound.homed key c member).1) ?_ rfl ?_
    · simp [empty]
    · simp

variable {c : Conn}

section

variable (sound : Sound cfg s)
include sound

theorem sound_reuse (member : .acquired key version ∈ s.calls) (parts : (s.group key).idle = old ++ c :: left)
    (same : version = (s.group key).version) (fresh : s.sent c < cfg.maxMsgsPerConn) :
    Sound cfg { ((s.setGroup key { s.group key with idle := left }).close old).become (.acquired key version)
        [.holding c] with
      gets := { c, version, sent := s.sent c } :: s.gets } := by
  have home := sound.homed key
  have mine := home c (by simp [parts])
  have rest : ∀ c ∈ left, c ∈ (s.group key).idle := by
    intro c member
    simp [parts, member]
  refine sound_setGroup (g := { s.group key with idle := left }) sound rfl
    (fun c member => home c (rest c member)) ?_ ?_ ?_
  · refine sound.counted.change member ?_ ?_ ?_ (sound.counted.limit key) ?_
    · simp [mine.1]
    · intro other differs
      simp [mine.1, Ne.symm differs]
    · simp [mine.1]
    · have moved := total_replace (busyIn key) [.holding c] member
      have one : total (busyIn key) [.holding c] = 1 := by simp [mine.1]
      have bound := sound.counted.bound key
      rw [parts, length_append, length_cons] at bound
      dsimp only
      omega
  · refine sound.kept.pop old [c] member (fun c member => (home c member).1) parts rfl ?_
    intro other
    simp
  · intro get member
    rcases mem_cons.mp member with rfl | earlier
    · exact ⟨mine.2.trans same.symm, fresh⟩
    · exact sound.gets get earlier

variable {now : Time}

theorem sound_popIdle (member : .acquired key version ∈ s.calls) : Sound cfg (popIdle cfg s key version now) := by
  unfold popIdle
  by_cases same : version = (s.group key).version
  · obtain ⟨some, none⟩ := reuse_spec now
    rw [if_neg (not_not.mpr same)]
    rcases popped : reuse cfg s now (s.group key).idle with ⟨_ | c, old, left⟩
    · obtain ⟨parts, empty⟩ := none old left popped
      rw [← parts]
      exact sound_dialing sound member empty rfl rfl
    · obtain ⟨parts, fresh⟩ := some c old left popped
      apply sound_reuse sound member parts same
      simp only [expired, Bool.or_eq_false_iff, decide_eq_false_iff_not, not_le] at fresh
      exact fresh.2
  · rw [if_pos same]
    exact sound_dialing sound member rfl rfl rfl

theorem sound_dialed {id : Nat} (positive : 0 < cfg.maxMsgsPerConn) (member : .dialing key version ∈ s.calls)
    (new : { id, group := key, version } ∉ s.opened) : Sound cfg (dialed s key version id) := by
  refine ⟨?_, sound.homed, ?_, ?_⟩
  · apply sound.counted.move member
    · simp
    · simp
  · have absent : { id, group := key, version } ∉ s.live := fun open_ => new (sound.kept.known _ open_)
    show Kept s.group _ s.shutdown.conns (_ :: s.live) (_ :: s.opened)
    refine sound.kept.change member ?_ (nodup_cons.mpr ⟨absent, sound.kept.once⟩) ?_
    · simp only [conns, total_cons, total_nil, count_cons]
      omega
    · intro c live
      rcases mem_cons.mp live with rfl | before
      · exact mem_cons_self
      · exact mem_cons_of_mem _ (sound.kept.known c before)
  · intro get member
    rcases mem_cons.mp member with rfl | earlier
    · exact ⟨rfl, positive⟩
    · exact sound.gets get earlier

theorem sound_put {reusable resets : Bool} (member : .holding c ∈ s.calls) :
    Sound cfg (put cfg s c reusable resets now) := by
  have dropping : Sound cfg (s.become (.holding c) [.dropping c]) := by
    apply sound_move sound member <;> intro other <;> simp
  have resetDone : Sound cfg (s.become (.holding c) [.resetDone c]) := by
    apply sound_move sound member <;> intro other <;> simp
  unfold put
  split
  · exact dropping
  · split
    · exact dropping
    · exact ⟨resetDone.counted, resetDone.homed, resetDone.kept, resetDone.gets⟩

theorem sound_putBack (member : .keeping c ∈ s.calls) : Sound cfg (putBack s c) := by
  unfold putBack
  by_cases same : c.version = (s.group c.group).version
  · rw [if_neg (not_not.mpr same)]
    set g : Group := { s.group c.group with idle := c :: (s.group c.group).idle } with shelved
    have home : ∀ other ∈ g.idle, other.group = c.group ∧ other.version = g.version := by
      intro other idle
      rcases mem_cons.mp idle with rfl | before
      · exact ⟨rfl, same⟩
      · exact sound.homed c.group other before
    refine sound_setGroup sound rfl home ?_ ?_ sound.gets
    · refine sound.counted.change member ?_ ?_ ?_ (sound.counted.limit c.group) ?_
      · simp
      · simp
      · simp [shelved]
      · have moved := total_replace (busyIn c.group) [.releasing c.group] member
        have one : busyIn c.group (.keeping c) = 1 := by simp
        have none : total (busyIn c.group) [.releasing c.group] = 0 := by simp
        have bound := sound.counted.bound c.group
        simp only [shelved, length_cons]
        omega
    · show Kept _ _ s.shutdown.conns s.live s.opened
      refine sound.kept.change member ?_ sound.kept.once sound.kept.known
      intro other
      have idle := count_idle_update g other (fun shelf idle => (sound.homed c.group shelf idle).1)
        fun shelf idle => (home shelf idle).1
      simp only [shelved, conns, total_cons, total_nil, count_cons] at idle ⊢
      omega
  · rw [if_pos same]
    apply sound_move sound member <;> intro other <;> simp

theorem sound_acquire (member : .waiting key version ∈ s.calls) (free : (s.group key).held < (s.group key).limit) :
    Sound cfg ((s.setGroup key { s.group key with held := (s.group key).held + 1 }).become
      (.waiting key version) [.acquired key version]) := by
  refine sound_setGroup sound rfl (sound.homed key) ?_ ?_ sound.gets
  · refine sound.counted.change member ?_ ?_ ?_ free ?_
    · intro other differs
      simp [Ne.symm differs]
    · simp
    · simp
    · have moved := total_replace (busyIn key) [.acquired key version] member
      have none : total (busyIn key) [.acquired key version] = 0 := by simp
      have bound := sound.counted.bound key
      dsimp only
      omega
  · refine sound.kept.pop [] [] member (fun c member => (sound.homed key c member).1) rfl rfl ?_
    intro c
    simp

theorem sound_release (member : .releasing key ∈ s.calls) :
    Sound cfg ((s.setGroup key { s.group key with held := (s.group key).held - 1 }).become (.releasing key) []) := by
  have token := weight_le_total (tokenIn key) member
  have one : tokenIn key (.releasing key) = 1 := by simp
  have tokens := sound.counted.tokens key
  have limit := sound.counted.limit key
  refine sound_setGroup sound rfl (sound.homed key) ?_ ?_ sound.gets
  · refine sound.counted.change member ?_ ?_ ?_ ?_ ?_
    · intro other differs
      simp [Ne.symm differs]
    · simp
    · rw [total_nil]
      dsimp only
      omega
    · dsimp only
      omega
    · have moved := total_replace (busyIn key) [] member
      have bound := sound.counted.bound key
      rw [total_nil] at moved
      dsimp only
      omega
  · refine sound.kept.pop [] [] member (fun c member => (sound.homed key c member).1) rfl rfl ?_
    intro c
    simp

theorem sound_detach (member : .clearing key ∈ s.calls) :
    Sound cfg ((s.setGroup key { s.group key with idle := [] }).become (.clearing key)
      [.closing (s.group key).idle]) := by
  refine sound_setGroup sound rfl nofun ?_ ?_ sound.gets
  · refine Counted.move (sound.counted.shrink rfl (Nat.le_refl _) (Nat.zero_le _)) member ?_ ?_ <;> intro other <;>
      simp
  · refine sound.kept.pop [] (s.group key).idle member (fun c member => (sound.homed key c member).1) ?_ rfl ?_
    · simp
    · simp

variable {rest : List Conn}

theorem sound_close {before after : Call} (member : before ∈ s.calls) (first : before.conns = c :: rest)
    (others : after.conns = rest) (token : after.token = before.token) (idle : after.busy = none) :
    Sound cfg ((s.close [c]).become before [after]) := by
  refine ⟨?_, sound.homed, ?_, sound.gets⟩
  · refine sound.counted.move member ?_ ?_ <;> intro key
    · simp [-token, token]
    · simp [-busy, idle]
  · refine sound.kept.close member first ?_
    intro other
    simp [-conns, others]

variable {groups : List Text}

theorem sound_drain (draining : s.shutdown = .draining groups []) :
    Sound cfg { s.setGroup key { s.group key with idle := [] } with
      shutdown := .draining remaining (s.group key).idle } := by
  refine sound_setGroup sound rfl nofun ?_ (sound.kept.shelve fun c => ?_) sound.gets
  · exact sound.counted.shrink rfl (Nat.le_refl _) (Nat.zero_le _)
  · have idle := count_idle_update { s.group key with idle := [] } c (fun c member => (sound.homed key c member).1) nofun
    rw [draining]
    simpa only [Shutdown.conns] using idle

theorem sound_closeDrained (draining : s.shutdown = .draining groups (c :: rest)) :
    Sound cfg { s.close [c] with shutdown := .draining groups rest } := by
  have kept : Kept s.group s.calls rest (s.live.diff [c]) s.opened := by
    refine ⟨?_, sound.kept.once.diff, fun c member => sound.kept.known c (diff_subset s.live _ member)⟩
    intro other
    have custody := sound.kept.custody other
    rw [draining] at custody
    simp only [Shutdown.conns, count_diff, count_cons, count_nil] at custody ⊢
    omega
  exact ⟨sound.counted, sound.homed, kept, sound.gets⟩

end

theorem stepFrom_eq_some {after : State} : s.stepFrom call after = some next ↔ call ∈ s.calls ∧ after = next := by
  simp [stepFrom]

theorem step_get (stepped : (pool cfg).step s (.get t) = some next) :
    next = s ∨ next = (groupFor s t).start (.waiting t.id t.version) := by
  by_cases closed : s.closed
  · simp only [pool, closed, ↓reduceIte, Option.some.injEq] at stepped
    exact .inl stepped.symm
  · simp only [pool, closed, Bool.false_eq_true, ↓reduceIte, Option.some.injEq] at stepped
    exact .inr stepped.symm

theorem step_acquire (stepped : (pool cfg).step s (.acquire key version) = some next) :
    (s.group key).held < (s.group key).limit ∧ .waiting key version ∈ s.calls ∧
      next = (s.setGroup key { s.group key with held := (s.group key).held + 1 }).become (.waiting key version)
        [.acquired key version] := by
  simp only [pool, Option.ite_none_right_eq_some, stepFrom_eq_some] at stepped
  obtain ⟨free, member, rfl⟩ := stepped
  exact ⟨free, member, rfl⟩

theorem step_dialed {id : Nat} (stepped : (pool cfg).step s (.dial key version (some id)) = some next) :
    { id, group := key, version } ∉ s.opened ∧ .dialing key version ∈ s.calls ∧ next = dialed s key version id := by
  simp only [pool, Option.ite_none_left_eq_some, stepFrom_eq_some] at stepped
  obtain ⟨new, member, rfl⟩ := stepped
  exact ⟨new, member, rfl⟩

theorem step_close (stepped : (pool cfg).step s .close = some next) :
    s.shutdown = .running ∧ next = { s with
      closed := true
      shutdown := .draining (Table.keysWhere s.groups fun _ _ => true) [] } := by
  cases running : s.shutdown with
  | running =>
      simp only [pool, running, Option.some.injEq] at stepped
      exact ⟨rfl, stepped.symm⟩
  | draining | returned => simp [pool, running] at stepped

theorem step_drain (stepped : (pool cfg).step s (.drain key) = some next) :
    ∃ groups, s.shutdown = .draining groups [] ∧
      next = { s.setGroup key { s.group key with idle := [] } with
        shutdown := .draining (groups.erase key) (s.group key).idle } := by
  rcases draining : s.shutdown with _ | ⟨groups, _ | ⟨c, rest⟩⟩ | _
  case draining.nil =>
    simp only [pool, draining, Option.ite_none_right_eq_some, Option.some.injEq] at stepped
    obtain ⟨_, rfl⟩ := stepped
    exact ⟨groups, rfl, rfl⟩
  all_goals simp [pool, draining] at stepped

theorem step_closeDrained (stepped : (pool cfg).step s .closeDrained = some next) :
    ∃ groups c rest, s.shutdown = .draining groups (c :: rest) ∧
      next = { s.close [c] with shutdown := .draining groups rest } := by
  rcases draining : s.shutdown with _ | ⟨groups, _ | ⟨c, rest⟩⟩ | _
  case draining.cons =>
    simp only [pool, draining, Option.some.injEq] at stepped
    exact ⟨groups, c, rest, rfl, stepped.symm⟩
  all_goals simp [pool, draining] at stepped

theorem step_closeReturns (stepped : (pool cfg).step s .closeReturns = some next) :
    s.shutdown = .draining [] [] ∧ next = { s with shutdown := .returned } := by
  rcases draining : s.shutdown with _ | ⟨_ | ⟨key, groups⟩, _ | ⟨c, rest⟩⟩ | _
  case draining.nil.nil =>
    simp only [pool, draining, Option.some.injEq] at stepped
    exact ⟨rfl, stepped.symm⟩
  all_goals simp [pool, draining] at stepped

theorem sound_step (positive : 0 < cfg.maxMsgsPerConn) (sound : Sound cfg s)
    (stepped : (pool cfg).step s label = some next) : Sound cfg next := by
  cases label with
  | get t =>
      obtain rfl | rfl := step_get stepped
      · exact sound
      · exact sound_start (sound_groupFor sound) rfl rfl rfl
  | acquire key version =>
      obtain ⟨free, member, rfl⟩ := step_acquire stepped
      exact sound_acquire sound member free
  | cancel | transportClosed =>
      obtain ⟨member, rfl⟩ := stepFrom_eq_some.mp stepped
      apply sound_move sound member <;> intro other <;> simp
  | popIdle key version now =>
      obtain ⟨member, rfl⟩ := stepFrom_eq_some.mp stepped
      exact sound_popIdle sound member
  | dial key version outcome =>
      cases outcome with
      | none =>
          obtain ⟨member, rfl⟩ := stepFrom_eq_some.mp stepped
          apply sound_move sound member <;> intro other <;> simp
      | some id =>
          obtain ⟨new, member, rfl⟩ := step_dialed stepped
          exact sound_dialed sound positive member new
  | send c =>
      obtain ⟨_, rfl⟩ := stepFrom_eq_some.mp stepped
      exact ⟨sound.counted, sound.homed, sound.kept, sound.gets⟩
  | put c reusable resets now =>
      obtain ⟨member, rfl⟩ := stepFrom_eq_some.mp stepped
      exact sound_put sound member
  | readClosed c =>
      obtain ⟨member, rfl⟩ := stepFrom_eq_some.mp stepped
      cases s.closed <;> apply sound_move sound member <;> intro other <;>
        simp
  | putBack c =>
      obtain ⟨member, rfl⟩ := stepFrom_eq_some.mp stepped
      exact sound_putBack sound member
  | closeConn | closeIdle =>
      obtain ⟨member, rfl⟩ := stepFrom_eq_some.mp stepped
      exact sound_close sound member rfl rfl rfl rfl
  | release key =>
      obtain ⟨member, rfl⟩ := stepFrom_eq_some.mp stepped
      exact sound_release sound member
  | closeTransport id =>
      cases stepped
      unfold closeTransport
      split
      · exact sound
      · exact sound_start sound rfl rfl rfl
  | detach key =>
      obtain ⟨member, rfl⟩ := stepFrom_eq_some.mp stepped
      exact sound_detach sound member
  | close =>
      obtain ⟨running, rfl⟩ := step_close stepped
      have kept := sound.kept
      rw [running] at kept
      exact ⟨sound.counted, sound.homed, kept, sound.gets⟩
  | drain key =>
      obtain ⟨groups, draining, rfl⟩ := step_drain stepped
      exact sound_drain sound draining
  | closeDrained =>
      obtain ⟨groups, c, rest, draining, rfl⟩ := step_closeDrained stepped
      exact sound_closeDrained sound draining
  | closeReturns =>
      obtain ⟨draining, rfl⟩ := step_closeReturns stepped
      have kept := sound.kept
      rw [draining] at kept
      exact ⟨sound.counted, sound.homed, kept, sound.gets⟩

theorem newPool_positive : 0 < (newPool cfg).maxMsgsPerConn := by
  simp only [newPool]
  split <;> omega

theorem sound_start_state : Sound cfg {} := by
  have empty : ∀ key, group {} key = {} := by
    intro key
    simp [group]
  refine ⟨⟨?_, ?_, ?_⟩, ?_, ⟨?_, nodup_nil, nofun⟩, nofun⟩ <;> simp [empty, Homed, Shutdown.conns]

theorem sound_of_reaches {guard : State → Step → Prop} (reached : (pool (newPool cfg)).Reaches guard {} s) :
    Sound (newPool cfg) s := by
  refine reached.invariant sound_start_state ?_
  intro before label after sound _ stepped
  exact sound_step newPool_positive sound stepped

end Sendplane.Sender.Pool
