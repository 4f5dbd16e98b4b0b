import Sendplane.Sender.Pool.Custody

namespace Sendplane.Sender.Pool

open Data Data.Threads Store State Call Function

variable {cfg : PoolConfig} {s next : State}

/-- Where the connections that a CloseTransport has in hand come from. -/
def Inherited (s : State) (call : Call) : Prop :=
  call.leftover = [] ∨ call ∈ s.calls ∨ (∃ c, .closing (c :: call.leftover) ∈ s.calls) ∨
    ∃ key, call.leftover = (s.group key).idle

def Step.shuts : Step → Bool
  | .close | .drain _ | .closeDrained | .closeReturns => true
  | _ => false

/-- What a step can do to limits, idle lists and the shutdown. -/
structure Effect (label : Step) (s next : State) : Prop where
  /-- A group keeps the limit it was created with. -/
  limits : ∀ (key : Text) (g : Group), s.groups[key]? = some g →
    ∃ g' : Group, next.groups[key]? = some g' ∧ g'.limit = g.limit
  /-- Nothing but Put fills an empty idle list. -/
  idle : ∀ key, (s.group key).idle = [] → (next.group key).idle = [] ∨ ∃ c, label = .putBack c ∧ c.group = key
  leftover : ∀ call ∈ next.calls, Inherited s call
  quiet : label.shuts = false → next.closed = s.closed ∧ next.shutdown = s.shutdown

section Effect

theorem inherited : ∀ call ∈ s.calls, Inherited s call :=
  fun _ member => .inr (.inl member)

theorem leftover_replace (calls : next.calls = replace s.calls before after)
    (none : ∀ call ∈ after, call.leftover = []) : ∀ call ∈ next.calls, Inherited s call := by
  intro call member
  rw [calls] at member
  rcases mem_replace member with new | old
  · exact .inl (none call new)
  · exact .inr (.inl old)

theorem effect_of_groups (same : next.groups = s.groups) (leftover : ∀ call ∈ next.calls, Inherited s call)
    (quiet : label.shuts = false → next.closed = s.closed ∧ next.shutdown = s.shutdown := by
      rintro ⟨⟩ <;> exact ⟨rfl, rfl⟩) :
    Effect label s next := by
  refine ⟨?_, ?_, leftover, quiet⟩
  · intro key g found
    exact ⟨g, by rw [same, found], rfl⟩
  · intro key empty
    rw [group, same]
    exact .inl empty

theorem effect_of_setGroup (groups : next.groups = (s.setGroup key g).groups) (limit : g.limit = (s.group key).limit)
    (idle : (s.group key).idle = [] → g.idle = [] ∨ ∃ c, label = .putBack c ∧ c.group = key)
    (leftover : ∀ call ∈ next.calls, Inherited s call)
    (quiet : label.shuts = false → next.closed = s.closed ∧ next.shutdown = s.shutdown := by
      rintro ⟨⟩ <;> exact ⟨rfl, rfl⟩) :
    Effect label s next := by
  refine ⟨?_, ?_, leftover, quiet⟩
  · intro other old found
    rw [groups, setGroup, Table.get_insert]
    by_cases same : key = other
    · subst same
      rw [group, found] at limit
      exact ⟨g, if_pos rfl, limit⟩
    · exact ⟨old, by rw [if_neg same, found], rfl⟩
  · intro other empty
    have group : next.group = update s.group key g := by
      rw [← group_setGroup]
      funext other
      rw [group, groups, group]
    rw [group]
    by_cases same : other = key
    · subst same
      rw [update_self]
      exact idle empty
    · rw [update_of_ne same]
      exact .inl empty

theorem effect_get : Effect (.get t) s ((groupFor s t).start (.waiting t.id t.version)) := by
  have leftover : ∀ call ∈ (s.start (.waiting t.id t.version)).calls, Inherited s call := by
    intro call member
    rcases List.mem_cons.mp member with rfl | old
    · exact .inl rfl
    · exact .inr (.inl old)
  unfold groupFor
  cases found : s.groups[t.id]? with
  | some g => exact effect_of_groups rfl leftover
  | none =>
      refine ⟨?_, ?_, leftover, fun _ => ⟨rfl, rfl⟩⟩
      · intro key g existing
        refine ⟨g, ?_, rfl⟩
        have differs : t.id ≠ key := by
          rintro rfl
          rw [found] at existing
          cases existing
        exact (Table.get_insert_ne differs).trans existing
      · intro key empty
        show ((s.setGroup t.id (newGroup t)).group key).idle = [] ∨ _
        rw [group_setGroup]
        by_cases same : key = t.id
        · rw [same, update_self]
          exact .inl rfl
        · rw [update_of_ne same]
          exact .inl empty

attribute [local simp] Call.leftover

theorem effect_popIdle (now : Time) : Effect (.popIdle key version now) s (popIdle cfg s key version now) := by
  unfold popIdle
  by_cases same : version = (s.group key).version
  · obtain ⟨some, none⟩ := reuse_spec now
    rw [if_neg (not_not.mpr same)]
    rcases popped : reuse cfg s now (s.group key).idle with ⟨_ | c, old, left⟩
    · obtain ⟨_, empty⟩ := none old left popped
      refine effect_of_setGroup rfl rfl (fun _ => .inl empty) (leftover_replace rfl ?_)
      simp
    · obtain ⟨parts, _⟩ := some c old left popped
      refine effect_of_setGroup rfl rfl ?_ (leftover_replace rfl ?_)
      · intro empty
        simp [parts] at empty
      · simp
  · rw [if_pos same]
    refine effect_of_setGroup rfl rfl (fun _ => .inl rfl) (leftover_replace rfl ?_)
    simp

theorem effect_step (stepped : (pool cfg).step s label = some next) : Effect label s next := by
  cases label with
  | get t =>
      obtain rfl | rfl := step_get stepped
      · exact effect_of_groups rfl inherited
      · exact effect_get
  | acquire key version =>
      obtain ⟨_, _, rfl⟩ := step_acquire stepped
      exact effect_of_setGroup rfl rfl .inl (leftover_replace rfl (by simp))
  | cancel | closeConn | transportClosed =>
      obtain ⟨_, rfl⟩ := stepFrom_eq_some.mp stepped
      exact effect_of_groups rfl (leftover_replace rfl (by simp))
  | popIdle key version now =>
      obtain ⟨_, rfl⟩ := stepFrom_eq_some.mp stepped
      exact effect_popIdle now
  | dial key version outcome =>
      cases outcome with
      | none =>
          obtain ⟨_, rfl⟩ := stepFrom_eq_some.mp stepped
          exact effect_of_groups rfl (leftover_replace rfl (by simp))
      | some id =>
          obtain ⟨_, _, rfl⟩ := step_dialed stepped
          exact effect_of_groups rfl (leftover_replace rfl (by simp))
  | send c =>
      obtain ⟨_, rfl⟩ := stepFrom_eq_some.mp stepped
      exact effect_of_groups rfl inherited
  | put c reusable resets now =>
      obtain ⟨_, rfl⟩ := stepFrom_eq_some.mp stepped
      unfold put
      split_ifs <;> exact effect_of_groups rfl (leftover_replace rfl (by simp))
  | readClosed c =>
      obtain ⟨_, rfl⟩ := stepFrom_eq_some.mp stepped
      cases s.closed <;> exact effect_of_groups rfl (leftover_replace rfl (by simp))
  | putBack c =>
      obtain ⟨_, rfl⟩ := stepFrom_eq_some.mp stepped
      by_cases same : c.version = (s.group c.group).version
      · rw [putBack, if_neg (not_not.mpr same)]
        exact effect_of_setGroup rfl rfl (fun _ => .inr ⟨c, rfl, rfl⟩) (leftover_replace rfl (by simp))
      · rw [putBack, if_pos same]
        exact effect_of_groups rfl (leftover_replace rfl (by simp))
  | release key =>
      obtain ⟨_, rfl⟩ := stepFrom_eq_some.mp stepped
      exact effect_of_setGroup rfl rfl .inl (leftover_replace rfl (by simp))
  | closeTransport id =>
      cases stepped
      unfold closeTransport
      split
      · exact effect_of_groups rfl inherited
      · refine effect_of_groups rfl ?_
        intro call member
        rcases List.mem_cons.mp member with rfl | old
        · exact .inl rfl
        · exact .inr (.inl old)
  | detach key =>
      obtain ⟨_, rfl⟩ := stepFrom_eq_some.mp stepped
      refine effect_of_setGroup rfl rfl (fun _ => .inl rfl) ?_
      intro call member
      rcases mem_replace member with new | old
      · cases List.mem_singleton.mp new
        exact .inr (.inr (.inr ⟨key, rfl⟩))
      · exact .inr (.inl old)
  | closeIdle c rest =>
      obtain ⟨before, rfl⟩ := stepFrom_eq_some.mp stepped
      refine effect_of_groups rfl ?_
      intro call member
      rcases mem_replace member with new | old
      · cases List.mem_singleton.mp new
        exact .inr (.inr (.inl ⟨c, before⟩))
      · exact .inr (.inl old)
  | close =>
      obtain ⟨_, rfl⟩ := step_close stepped
      exact effect_of_groups rfl inherited
  | drain key =>
      obtain ⟨groups, _, rfl⟩ := step_drain stepped
      exact effect_of_setGroup rfl rfl (fun _ => .inl rfl) (inherited (s := s))
  | closeDrained =>
      obtain ⟨groups, c, rest, _, rfl⟩ := step_closeDrained stepped
      exact effect_of_groups rfl inherited
  | closeReturns =>
      obtain ⟨_, rfl⟩ := step_closeReturns stepped
      exact effect_of_groups rfl inherited

end Effect

theorem limit_of_reaches {key : Text} {guard : State → Step → Prop} (found : created.groups[key]? = some g)
    (reached : (pool cfg).Reaches guard created s) : ∃ g' : Group, s.groups[key]? = some g' ∧ g'.limit = g.limit := by
  induction reached with
  | refl => exact ⟨g, found, rfl⟩
  | tail _ next ih =>
      obtain ⟨old, stored, same⟩ := ih
      obtain ⟨label, _, stepped⟩ := next
      obtain ⟨new, kept, limit⟩ := (effect_step stepped).limits key old stored
      exact ⟨new, kept, limit.trans same⟩

def Call.dials (key : Text) : Call → Bool
  | .dialing other _ => other = key
  | _ => false

def Call.holds (key : Text) (call : Call) : Bool :=
  call.checkedOut.any fun c => c.group = key

theorem busy_eq (calls : List Call) :
    total (busyIn key) calls = calls.countP (dials key) + calls.countP (holds key) := by
  induction calls with
  | nil => rfl
  | cons call rest ih =>
      rw [total_cons, List.countP_cons, List.countP_cons]
      cases call <;> simp [busyIn, busy, dials, holds, checkedOut] <;> omega

theorem Sound.checkedOut_once (sound : Sound cfg s) (c : Conn) :
    s.calls.countP (fun call => call.checkedOut = some c) ≤ 1 := by
  have weights : s.calls.countP (fun call => call.checkedOut = some c) ≤
      total (fun call => call.conns.count c) s.calls := by
    rw [countP_eq_total]
    apply total_le
    intro call
    cases call <;> simp [checkedOut, conns, List.count_singleton]
  have custody := sound.kept.custody c
  have once := List.nodup_iff_count_le_one.mp sound.kept.once c
  omega

/-- A group stays within the limit it was created with, no connection is checked
out twice, and Get returns connections of the version it was asked for that may
still take a message. -/
theorem pool_keeps_limits (cfg : PoolConfig) (created s : State) (key : Text) (g : Group)
    (start : (pool (newPool cfg)).Reachable {} created) (found : created.groups[key]? = some g)
    (reached : (pool (newPool cfg)).Reachable created s) :
    (s.group key).idle.length + s.calls.countP (Call.dials key) + s.calls.countP (Call.holds key) ≤ g.limit ∧
      (∀ c, s.calls.countP (fun call => call.checkedOut = some c) ≤ 1) ∧
      ∀ get ∈ s.gets, get.c.version = get.version ∧ get.sent < (newPool cfg).maxMsgsPerConn := by
  have sound := sound_of_reaches (start.trans reached)
  refine ⟨?_, sound.checkedOut_once, sound.gets⟩
  obtain ⟨now, stored, limit⟩ := limit_of_reaches found reached
  have bound := sound.counted.bound key
  rw [busy_eq] at bound
  have same : s.group key = now := by rw [group, stored]; rfl
  rw [same] at bound ⊢
  omega

def smtpRow : Transport :=
  { id := text "t1", maxConns := 1, version := 3 }

def smtpConn : Conn :=
  { id := 1, group := text "t1", version := 3 }

def openingRun : List Step :=
  [.get smtpRow, .acquire (text "t1") 3, .popIdle (text "t1") 3 0, .dial (text "t1") 3 (some 1)]

def reusingRun : List Step :=
  [.send smtpConn, .put smtpConn true true 5, .readClosed smtpConn, .putBack smtpConn, .release (text "t1"),
    .get smtpRow, .acquire (text "t1") 3, .popIdle (text "t1") 3 6]

theorem reused_within_limit : ∃ created s : State, ∃ g : Group,
    (pool (newPool {})).run {} openingRun = some created ∧ created.groups[text "t1"]? = some g ∧ g.limit = 1 ∧
    (pool (newPool {})).run created reusingRun = some s ∧ { c := smtpConn, version := 3, sent := 1 } ∈ s.gets ∧
    (s.group (text "t1")).idle.length + s.calls.countP (Call.dials (text "t1")) +
      s.calls.countP (Call.holds (text "t1")) ≤ 1 := by
  have within : ∀ (created s : State) (g : Group), (pool (newPool {})).run {} openingRun = some created →
      created.groups[text "t1"]? = some g → (pool (newPool {})).run created reusingRun = some s → _ :=
    fun created s g opened found reused => (pool_keeps_limits {} created s (text "t1") g
      (System.reachable_of_run opened) found (System.reachable_of_run reused)).1
  exact ⟨_, _, _, rfl, rfl, rfl, rfl, by decide +kernel, within _ _ _ rfl rfl rfl⟩

end Sendplane.Sender.Pool
