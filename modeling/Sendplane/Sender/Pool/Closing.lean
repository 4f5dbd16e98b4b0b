import Sendplane.Sender.Pool.Limits

namespace Sendplane.Sender.Pool

open Data Data.Threads Store List

variable {cfg : PoolConfig} {s next : State}

/-- No Put shelves a connection in a group that Close has drained, and Close does
not return while a CloseTransport has connections to close. -/
def orderly : State → Step → Bool
  | s, .putBack c => !s.closed || c.group ∈ s.shutdown.remaining
  | s, .closeReturns => s.calls.all fun call => call.leftover = []
  | _, _ => true

/-- What Close has emptied so far stays empty. -/
structure Drained (s : State) : Prop where
  closed : s.closed = false ↔ s.shutdown = .running
  idle : s.closed = true → ∀ key, key ∉ s.shutdown.remaining → (s.group key).idle = []
  leftover : s.shutdown = .returned → ∀ call ∈ s.calls, call.leftover = []

theorem Drained.inherit (drained : Drained s) (returned : s.shutdown = .returned) (inherited : Inherited s call) :
    call.leftover = [] := by
  have closed : s.closed = true := by
    cases open_ : s.closed with
    | true => rfl
    | false =>
        rw [drained.closed.mp open_] at returned
        cases returned
  rcases inherited with none | same | ⟨c, before⟩ | ⟨key, idle⟩
  · exact none
  · exact drained.leftover returned call same
  · exact absurd (drained.leftover returned _ before) (cons_ne_nil _ _)
  · rw [idle]
    exact drained.idle closed key (by rw [returned]; exact not_mem_nil)

theorem drained_close (stepped : (pool cfg).step s .close = some next) : Drained next := by
  obtain ⟨_, rfl⟩ := step_close stepped
  refine ⟨by simp, ?_, by simp⟩
  intro _ key unknown
  have absent : s.groups[key]? = none := by
    cases found : s.groups[key]? with
    | none => rfl
    | some g =>
        have known : key ∈ s.groups.keysWhere fun _ _ => true := Table.mem_keysWhere.mpr ⟨g, found, rfl⟩
        exact absurd known unknown
  show (s.groups[key]?.getD {}).idle = []
  rw [absent]
  rfl

theorem drained_drain (drained : Drained s) (stepped : (pool cfg).step s (.drain key) = some next) : Drained next := by
  obtain ⟨groups, draining, rfl⟩ := step_drain stepped
  refine ⟨?_, ?_, by simp⟩
  · show s.closed = false ↔ _
    rw [drained.closed, draining]
    simp
  · intro closed other done
    show ((s.setGroup key _).group other).idle = []
    rw [State.group_setGroup]
    by_cases same : other = key
    · rw [same, Function.update_self]
    · rw [Function.update_of_ne same]
      apply drained.idle closed
      rw [draining]
      intro remaining
      exact done ((mem_erase_of_ne same).mpr remaining)

theorem drained_step (drained : Drained s) (allowed : orderly s label = true)
    (stepped : (pool cfg).step s label = some next) : Drained next := by
  have effect := effect_step stepped
  cases shuts : label.shuts with
  | false =>
      obtain ⟨closed, shutdown⟩ := effect.quiet shuts
      refine ⟨by rw [closed, shutdown]; exact drained.closed, ?_, ?_⟩
      · intro isClosed key done
        rw [closed] at isClosed
        rw [shutdown] at done
        rcases effect.idle key (drained.idle isClosed key done) with empty | ⟨c, rfl, rfl⟩
        · exact empty
        · simp only [orderly, isClosed, Bool.not_true, Bool.false_or, decide_eq_true_eq] at allowed
          exact absurd allowed done
      · intro returned call member
        rw [shutdown] at returned
        exact drained.inherit returned (effect.leftover call member)
  | true =>
      cases label with
      | close => exact drained_close stepped
      | drain key => exact drained_drain drained stepped
      | closeDrained =>
          obtain ⟨groups, c, rest, draining, rfl⟩ := step_closeDrained stepped
          refine ⟨?_, ?_, by simp⟩
          · show s.closed = false ↔ _
            rw [drained.closed, draining]
            simp
          · intro closed key done
            exact drained.idle closed key (by rw [draining]; exact done)
      | closeReturns =>
          obtain ⟨draining, rfl⟩ := step_closeReturns stepped
          refine ⟨?_, ?_, ?_⟩
          · rw [drained.closed, draining]
            simp
          · intro closed key done
            exact drained.idle closed key (by rw [draining]; exact done)
          · intro _ call member
            simpa using all_eq_true.mp allowed call member
      | _ => cases shuts

theorem drained_of_reaches (reached : (pool cfg).Reaches (fun s label => orderly s label = true) {} s) : Drained s := by
  have start : Drained {} := by
    refine ⟨by simp, nofun, nofun⟩
  refine reached.invariant start ?_
  intro before label after drained allowed stepped
  exact drained_step drained allowed stepped

theorem Sound.live_nil_iff (sound : Sound cfg s) (returned : s.shutdown = .returned)
    (checkedIn : ∀ call ∈ s.calls, call.checkedOut = none) :
    s.live = [] ↔ (∀ key, (s.group key).idle = []) ∧ ∀ call ∈ s.calls, call.leftover = [] := by
  have conns : ∀ call ∈ s.calls, call.conns = call.leftover := by
    intro call member
    have free := checkedIn call member
    cases call <;> first | rfl | cases free
  constructor
  · intro empty
    have places := sound.kept.custody
    rw [empty] at places
    constructor
    · intro key
      rw [eq_nil_iff_forall_not_mem]
      intro c idle
      have none := places c
      rw [(sound.homed key c idle).1] at none
      have some := count_pos_iff.mpr idle
      rw [count_nil] at none
      omega
    · intro call member
      rw [← conns call member, eq_nil_iff_forall_not_mem]
      intro c held
      have none := places c
      have some := count_pos_iff.mpr held
      have below := weight_le_total (fun call => call.conns.count c) member
      rw [count_nil] at none
      omega
  · rintro ⟨idle, leftover⟩
    rw [eq_nil_iff_forall_not_mem]
    intro c live
    have custody := sound.kept.custody c
    have none : total (fun call => call.conns.count c) s.calls = 0 := by
      rw [total_eq_zero_iff]
      intro call member
      rw [conns call member, leftover call member, count_nil]
    have some := count_pos_iff.mpr live
    rw [idle, returned] at custody
    simp only [Shutdown.conns, count_nil] at custody
    omega

/-- Once an orderly Close has returned and every connection is back, none is open. -/
theorem closed_pool_is_empty (cfg : PoolConfig) (s : State)
    (reached : (pool (newPool cfg)).Reaches (fun s label => orderly s label = true) {} s)
    (returned : s.shutdown = .returned) (checkedIn : ∀ call ∈ s.calls, call.checkedOut = none) : s.live = [] := by
  have drained := drained_of_reaches reached
  have sound := sound_of_reaches reached
  rw [sound.live_nil_iff returned checkedIn]
  refine ⟨?_, drained.leftover returned⟩
  intro key
  have closed : s.closed = true := by
    rw [← Bool.not_eq_false, drained.closed, returned]
    simp
  exact drained.idle closed key (by rw [returned]; exact not_mem_nil)

def closingRun : List Step :=
  openingRun ++ [.put smtpConn true true 5, .readClosed smtpConn, .putBack smtpConn, .release (text "t1"),
    .close, .drain (text "t1"), .closeDrained, .closeReturns]

theorem closed_after_closingRun : ∃ s : State, (pool (newPool {})).run {} closingRun = some s ∧
    s.opened = [smtpConn] ∧ s.live = [] := by
  refine ⟨_, rfl, rfl, ?_⟩
  have ran : (pool (newPool {})).run {} closingRun = some _ := rfl
  exact closed_pool_is_empty {} _ (System.reaches_of_run (by decide +kernel) ran) rfl (by decide +kernel)

/-- Put reads the flag before Close sets it, and shelves the connection after Close has returned. -/
def leakingRun : List Step :=
  openingRun ++ [.put smtpConn true true 5, .readClosed smtpConn, .close, .drain (text "t1"), .closeReturns,
    .putBack smtpConn, .release (text "t1")]

theorem shelved_connection_stays_open : ∃ s : State, (pool (newPool {})).Reachable {} s ∧ s.shutdown = .returned ∧
    s.calls = [] ∧ s.live = [smtpConn] := by
  have ran : (pool (newPool {})).run {} leakingRun = some _ := rfl
  exact ⟨_, System.reachable_of_run ran, rfl, by decide +kernel, by decide +kernel⟩

/-- While no call is under way no token is taken, and an open connection is idle in its
group, at the version of that, or about to be closed. -/
theorem nothing_leaks (cfg : PoolConfig) (s : State) (reached : (pool (newPool cfg)).Reachable {} s) (quiet : s.calls = []) :
    (∀ key, (s.group key).held = 0) ∧ ∀ c ∈ s.live, c ∉ s.shutdown.conns →
      c ∈ (s.group c.group).idle ∧ c.version = (s.group c.group).version := by
  have sound := sound_of_reaches reached
  constructor
  · intro key
    rw [← sound.counted.tokens key, quiet]
    rfl
  · intro c live kept
    rw [← count_pos_iff, sound.kept.custody, quiet, count_eq_zero.mpr kept] at live
    have idle : c ∈ (s.group c.group).idle := count_pos_iff.mp live
    exact ⟨idle, (sound.homed _ c idle).2⟩

theorem quiet_leaks_nothing : ∃ s : State, (pool (newPool {})).run {} leakingRun = some s ∧ ∀ key, (s.group key).held = 0 := by
  have ran : (pool (newPool {})).run {} leakingRun = some _ := rfl
  exact ⟨_, ran, (nothing_leaks {} _ (System.reachable_of_run ran) (by decide +kernel)).1⟩

end Sendplane.Sender.Pool
