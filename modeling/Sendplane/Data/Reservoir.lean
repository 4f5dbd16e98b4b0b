import Mathlib.Algebra.Order.Field.Basic
import Mathlib.Tactic.FieldSimp
import Mathlib.Tactic.Linarith
import Mathlib.Tactic.Ring

namespace Sendplane.Data

open List

/-! # Reservoirs

A reservoir fills at a constant rate up to its capacity.  A draw takes one token at
an instant that may lie after the one it is requested at; the reservoir then stands
at that later instant.
-/

universe u

/-- The tokens that a reservoir of a capacity holds at the instant it was last
brought to. -/
structure Reservoir {K : Type u} [LE K] (capacity : K) where
  tokens : K
  last : K
  capped : tokens ≤ capacity

namespace Reservoir

variable {K : Type u} [Field K] [LinearOrder K] {capacity : K} (rate : K)

def full (now : K) : Reservoir capacity := ⟨capacity, now, le_rfl⟩

/-- What the reservoir would hold at an instant if nobody drew from it. -/
def level (pool : Reservoir capacity) (instant : K) : K :=
  min capacity (pool.tokens + rate * (instant - pool.last))

def refill (pool : Reservoir capacity) (now : K) : Reservoir capacity :=
  if now ≤ pool.last then pool else ⟨pool.level rate now, now, min_le_left _ _⟩

def shortage (tokens : K) : K :=
  if 1 ≤ tokens then 0 else (1 - tokens) / rate

def release (pool : Reservoir capacity) (now : K) : K :=
  now + shortage rate (pool.refill rate now).tokens

/-- In no window of time are there more releases than the capacity and what
comes in meanwhile. -/
def Bounded (capacity : K) (releases : List K) : Prop :=
  ∀ start length, 0 ≤ length →
    ((releases.countP fun instant => start ≤ instant ∧ instant < start + length : Nat) : K) ≤ capacity + rate * length

variable {rate} {pool : Reservoir capacity} {now delay instant : K}

theorem refill_early (early : now ≤ pool.last) : pool.refill rate now = pool :=
  if_pos early

theorem level_last : pool.level rate pool.last = pool.tokens := by
  rw [level, sub_self, mul_zero, add_zero]
  exact min_eq_right pool.capped

theorem refill_last : (pool.refill rate now).last = max pool.last now := by
  unfold refill
  split
  case isTrue early => exact (max_eq_left early).symm
  case isFalse late => exact (max_eq_right (not_le.mp late).le).symm

theorem refill_tokens : (pool.refill rate now).tokens = pool.level rate (max pool.last now) := by
  unfold refill
  split
  case isTrue early => rw [max_eq_left early, level_last]
  case isFalse late => rw [max_eq_right (not_le.mp late).le]

theorem level_le (rate : K) (pool : Reservoir capacity) (instant : K) :
    pool.level rate instant ≤ pool.tokens + rate * (instant - pool.last) :=
  min_le_right _ _

theorem level_capped (rate : K) (pool : Reservoir capacity) (instant : K) : pool.level rate instant ≤ capacity :=
  min_le_left _ _

theorem release_turn (turn : pool.last ≤ now) : pool.release rate now = now + shortage rate (pool.level rate now) := by
  rw [release, refill_tokens, max_eq_right turn]

variable [IsStrictOrderedRing K]

variable (rate) in
def draw (pool : Reservoir capacity) (now delay : K) : Reservoir capacity :=
  let ready := (pool.refill rate now).refill rate (now + delay)
  ⟨ready.tokens - 1, ready.last, (sub_le_self _ zero_le_one).trans ready.capped⟩

variable (rate) in
def take (pool : Reservoir capacity) (now : K) : Reservoir capacity :=
  pool.draw rate now (shortage rate (pool.refill rate now).tokens)

variable (rate) in
def trace : Reservoir capacity → List K → List (K × K)
  | _, [] => []
  | pool, now :: rest => (now, pool.release rate now) :: trace (pool.take rate now) rest

theorem level_later (filling : 0 ≤ rate) (later : now ≤ instant) :
    min capacity (pool.level rate now + rate * (instant - now)) = pool.level rate instant := by
  have comes : 0 ≤ rate * (instant - now) := mul_nonneg filling (sub_nonneg.mpr later)
  have total : pool.tokens + rate * (now - pool.last) + rate * (instant - now) =
      pool.tokens + rate * (instant - pool.last) := by ring
  rw [level, level, ← min_add_add_right, total, ← min_assoc, min_eq_left (le_add_of_nonneg_right comes)]

theorem level_refill (filling : 0 ≤ rate) (stands : pool.last ≤ instant) (later : now ≤ instant) :
    (pool.refill rate now).level rate instant = pool.level rate instant := by
  rw [level, refill_tokens, refill_last]
  exact level_later filling (max_le stands later)

theorem draw_last (waits : 0 ≤ delay) : (pool.draw rate now delay).last = max pool.last (now + delay) := by
  change ((pool.refill rate now).refill rate (now + delay)).last = _
  rw [refill_last, refill_last, max_assoc, max_eq_right (le_add_of_nonneg_right waits)]

theorem draw_tokens (filling : 0 ≤ rate) (waits : 0 ≤ delay) :
    (pool.draw rate now delay).tokens = pool.level rate (max pool.last (now + delay)) - 1 := by
  have later : now ≤ now + delay := le_add_of_nonneg_right waits
  change ((pool.refill rate now).refill rate (now + delay)).tokens - 1 = _
  rw [refill_tokens, refill_last, max_assoc, max_eq_right later,
    level_refill filling (le_max_left _ _) (later.trans (le_max_right _ _))]

theorem shortage_nonneg (filling : 0 < rate) (tokens : K) : 0 ≤ shortage rate tokens := by
  unfold shortage
  split
  · exact le_rfl
  case isFalse short => exact div_nonneg (sub_nonneg.mpr (not_le.mp short).le) filling.le

/-- The tokens that came while the request waited, counted in tokens. -/
theorem mul_shortage (filling : 0 < rate) (tokens : K) : rate * shortage rate tokens = max 0 (1 - tokens) := by
  unfold shortage
  split
  case isTrue enough => rw [mul_zero, max_eq_left (sub_nonpos.mpr enough)]
  case isFalse short =>
    rw [mul_div_cancel₀ _ filling.ne', max_eq_right (sub_nonneg.mpr (not_le.mp short).le)]

section Turn

variable (filling : 0 < rate) (roomy : 1 ≤ capacity)

include filling roomy

theorem level_release (turn : pool.last ≤ now) :
    pool.level rate (pool.release rate now) = max 1 (pool.level rate now) := by
  have waits := shortage_nonneg filling (pool.level rate now)
  rw [release_turn turn, ← level_later filling.le (le_add_of_nonneg_right waits), add_sub_cancel_left,
    mul_shortage filling]
  rcases le_total 1 (pool.level rate now) with enough | short
  · rw [max_eq_left (sub_nonpos.mpr enough), add_zero, min_eq_right (level_capped rate pool now), max_eq_right enough]
  · rw [max_eq_right (sub_nonneg.mpr short), add_sub_cancel, min_eq_right roomy, max_eq_left short]

theorem take_tokens (turn : pool.last ≤ now) : (pool.take rate now).tokens = max 1 (pool.level rate now) - 1 := by
  have waits := shortage_nonneg filling (pool.refill rate now).tokens
  have later : pool.last ≤ pool.release rate now := turn.trans (le_add_of_nonneg_right waits)
  rw [take, draw_tokens filling.le waits, ← level_release filling roomy turn, ← release, max_eq_right later]

omit roomy in
theorem le_release (pool : Reservoir capacity) : now ≤ pool.release rate now :=
  le_add_of_nonneg_right (shortage_nonneg filling _)

omit roomy in
theorem take_last (turn : pool.last ≤ now) : (pool.take rate now).last = pool.release rate now :=
  (draw_last (shortage_nonneg filling _)).trans (max_eq_right (turn.trans (le_release filling pool)))

theorem take_of_enough (turn : pool.last ≤ now) (enough : 1 ≤ pool.level rate now)
    (capped : pool.level rate now - 1 ≤ capacity) :
    pool.release rate now = now ∧ pool.take rate now = ⟨pool.level rate now - 1, now, capped⟩ := by
  have released : pool.release rate now = now := by
    rw [release_turn turn, shortage, if_pos enough, add_zero]
  have tokens := take_tokens filling roomy turn
  have last := take_last filling turn
  rw [max_eq_right enough] at tokens
  rw [released] at last
  refine ⟨released, ?_⟩
  cases drawn : pool.take rate now
  rw [drawn] at tokens last
  rw [mk.injEq]
  exact ⟨tokens, last⟩

end Turn

/-- A reservoir whose requests so far each read the clock after the releases
before it, with the last reading and all releases. -/
structure Paced (rate : K) (pool : Reservoir capacity) (reading : K) (releases : List K) : Prop where
  nonneg : 0 ≤ pool.tokens
  latest : ∀ instant ∈ releases, instant ≤ pool.last
  origin : pool.last ≤ reading ∨ pool.last ∈ releases
  waiting : reading < pool.last → pool.tokens = 0 ∧ pool.last ≤ reading + 1 / rate
  within : ∀ start, (∃ instant ∈ releases, start ≤ instant) →
    pool.tokens + (releases.countP fun instant => start ≤ instant : Nat) ≤ capacity + rate * (pool.last - start)
  tight : ∃ start ≤ pool.last,
    capacity + rate * (pool.last - start) ≤ pool.tokens + (releases.countP fun instant => start ≤ instant : Nat)

theorem paced_full (roomy : 1 ≤ capacity) : Paced rate (full now : Reservoir capacity) now [] where
  nonneg := zero_le_one.trans roomy
  latest := by simp
  origin := .inl le_rfl
  waiting := fun early => absurd early (lt_irrefl _)
  within := by simp
  tight := ⟨now, le_rfl, by simp [full]⟩

variable {reading : K} {releases : List K}

omit [Field K] [IsStrictOrderedRing K] in
theorem count_eq_zero (before : ¬ ∃ instant ∈ releases, start ≤ instant) :
    releases.countP (fun instant => start ≤ instant) = 0 := by
  rw [countP_eq_zero]
  intro instant member counted
  exact before ⟨instant, member, by simpa using counted⟩

section Step

variable (filling : 0 < rate) (roomy : 1 ≤ capacity) (paced : Paced rate pool reading releases)
  (turn : pool.last ≤ now)

include filling paced turn

theorem Paced.latest_snoc : ∀ instant ∈ releases ++ [pool.release rate now], instant ≤ pool.release rate now := by
  have later := turn.trans (le_release filling pool)
  intro instant member
  rcases mem_append.mp member with earlier | new
  · exact (paced.latest instant earlier).trans later
  · exact (mem_singleton.mp new).le

theorem Paced.release_le (roomy : 1 ≤ capacity) : pool.release rate now ≤ now + 1 / rate := by
  have held : 0 ≤ pool.level rate now := le_min (zero_le_one.trans roomy)
      (add_nonneg paced.nonneg (mul_nonneg filling.le (sub_nonneg.mpr turn)))
  rw [release_turn turn, shortage]
  split
  · exact add_le_add_right (one_div_nonneg.mpr filling.le) now
  · exact add_le_add_right (div_le_div_of_nonneg_right (sub_le_self 1 held) filling.le) now

/-- The draw takes one token of those that came since the draw before. -/
theorem Paced.within_snoc (member : instant ∈ releases ++ [pool.release rate now]) (after : start ≤ instant) :
    pool.level rate (pool.release rate now) - 1 +
        ((releases ++ [pool.release rate now]).countP fun instant => start ≤ instant : Nat) ≤
      capacity + rate * (pool.release rate now - start) := by
  have counted : start ≤ pool.release rate now := after.trans (paced.latest_snoc filling turn instant member)
  rw [countP_append, countP_singleton, if_pos (by simpa using counted)]
  push_cast
  by_cases first : ∃ earlier ∈ releases, start ≤ earlier
  · have bound := paced.within start first
    have comes := level_le rate pool (pool.release rate now)
    linarith
  · have span := mul_nonneg filling.le (sub_nonneg.mpr counted)
    have capped := level_capped rate pool (pool.release rate now)
    rw [count_eq_zero first, Nat.cast_zero]
    linarith

/-- A window that no token was lost in stays one, unless the reservoir has run
over since: then one starts at the new release. -/
theorem Paced.tight_snoc :
    ∃ start ≤ pool.release rate now, capacity + rate * (pool.release rate now - start) ≤
      pool.level rate (pool.release rate now) - 1 +
        ((releases ++ [pool.release rate now]).countP fun instant => start ≤ instant : Nat) := by
  have later := turn.trans (le_release filling pool)
  rcases le_total capacity (pool.tokens + rate * (pool.release rate now - pool.last)) with above | under
  · refine ⟨pool.release rate now, le_rfl, ?_⟩
    rw [level, min_eq_left above, countP_append, countP_singleton, if_pos (by simp)]
    push_cast
    linarith
  · obtain ⟨start, before, excess⟩ := paced.tight
    have counted : start ≤ pool.release rate now := before.trans later
    refine ⟨start, counted, ?_⟩
    rw [level, min_eq_right under, countP_append, countP_singleton, if_pos (by simpa using counted)]
    push_cast
    linarith

include roomy

theorem Paced.take : Paced rate (pool.take rate now) now (releases ++ [pool.release rate now]) := by
  have tokens := take_tokens filling roomy turn
  have last := take_last filling turn
  have drawn : (pool.take rate now).tokens = pool.level rate (pool.release rate now) - 1 := by
    rw [tokens, level_release filling roomy turn]
  refine ⟨?_, ?_, ?_, ?_, ?_, ?_⟩
  · rw [tokens]
    exact sub_nonneg.mpr (le_max_left _ _)
  · rw [last]
    exact paced.latest_snoc filling turn
  · rw [last]
    exact .inr (by simp)
  · intro waited
    rw [last] at waited ⊢
    have short : pool.level rate now ≤ 1 := by
      by_contra enough
      rw [release_turn turn, shortage, if_pos (not_le.mp enough).le, add_zero] at waited
      exact lt_irrefl _ waited
    exact ⟨by rw [tokens, max_eq_left short, sub_self], paced.release_le filling turn roomy⟩
  · rintro start ⟨instant, member, after⟩
    rw [last, drawn]
    exact paced.within_snoc filling turn member after
  · rw [last, drawn]
    exact paced.tight_snoc filling turn

omit roomy in
theorem Paced.fill (capped : pool.level rate now ≤ capacity) : Paced rate ⟨pool.level rate now, now, capped⟩ now releases where
  nonneg := le_min (paced.nonneg.trans pool.capped)
    (add_nonneg paced.nonneg (mul_nonneg filling.le (sub_nonneg.mpr turn)))
  latest instant member := (paced.latest instant member).trans turn
  origin := .inl le_rfl
  waiting early := absurd early (lt_irrefl _)
  within start counted := by
    have bound := paced.within start counted
    have comes := level_le rate pool now
    dsimp only
    linarith
  tight := by
    rcases le_total capacity (pool.tokens + rate * (now - pool.last)) with above | under
    · exact ⟨now, le_rfl, by simp [level, above]⟩
    · obtain ⟨start, before, excess⟩ := paced.tight
      refine ⟨start, before.trans turn, ?_⟩
      dsimp only [level]
      rw [min_eq_right under]
      linarith

theorem Paced.bounded_snoc (bounded : Bounded rate capacity releases) :
    Bounded rate capacity (releases ++ [pool.release rate now]) := by
  intro start length forward
  have span := mul_nonneg filling.le forward
  by_cases inside : pool.release rate now < start + length
  · -- all releases lie before the end of the window
    have same : (releases ++ [pool.release rate now]).countP
          (fun instant => start ≤ instant ∧ instant < start + length) =
        (releases ++ [pool.release rate now]).countP fun instant => start ≤ instant := by
      refine countP_congr fun instant member => ?_
      have before := (paced.latest_snoc filling turn instant member).trans_lt inside
      simp [before]
    rw [same]
    by_cases some : ∃ instant ∈ releases ++ [pool.release rate now], start ≤ instant
    · obtain ⟨instant, member, after⟩ := some
      have within := paced.within_snoc filling turn member after
      have full : 1 ≤ pool.level rate (pool.release rate now) := by
        rw [level_release filling roomy turn]
        exact le_max_left _ _
      have shorter : rate * (pool.release rate now - start) ≤ rate * length :=
        mul_le_mul_of_nonneg_left (by linarith) filling.le
      linarith
    · rw [count_eq_zero some, Nat.cast_zero]
      linarith
  · have outside : countP (fun instant => start ≤ instant ∧ instant < start + length)
        [pool.release rate now] = 0 := by
      rw [countP_singleton, if_neg (by simp [inside])]
    rw [countP_append, outside]
    exact bounded start length forward

end Step

theorem bounded_nil (filling : 0 ≤ rate) (full : 0 ≤ capacity) : Bounded rate capacity [] :=
  fun _ _ forward => by simpa using add_nonneg full (mul_nonneg filling forward)

/-- The bound holds with both ends of the window, as it holds for every longer one. -/
theorem Bounded.closed (bounded : Bounded rate capacity releases) (start length : K) (forward : 0 ≤ length) :
    ((releases.countP fun instant => start ≤ instant ∧ instant ≤ start + length : Nat) : K) ≤ capacity + rate * length := by
  by_contra above
  rw [not_le] at above
  obtain ⟨more, positive, still⟩ := exists_pos_mul_lt (sub_pos.mpr above) rate
  have bound := bounded start (length + more) (by linarith)
  have fewer : releases.countP (fun instant => start ≤ instant ∧ instant ≤ start + length) ≤
      releases.countP fun instant => start ≤ instant ∧ instant < start + (length + more) := by
    refine countP_mono_left fun instant _ inside => ?_
    simp only [decide_eq_true_eq] at inside ⊢
    exact ⟨inside.1, by linarith [inside.2]⟩
  have counts : ((releases.countP fun instant => start ≤ instant ∧ instant ≤ start + length : Nat) : K) ≤ _ :=
    Nat.cast_le.mpr fewer
  linarith

/-- A request that reads the clock before an earlier release is released too
early: the window up to its release holds more than it may. -/
theorem Paced.overfull (filling : 0 < rate) (paced : Paced rate pool reading releases) (forward : reading ≤ now)
    (early : now < pool.last) : ¬ Bounded rate capacity (releases ++ pool.release rate now :: later) := by
  obtain ⟨empty, soon⟩ := paced.waiting (forward.trans_lt early)
  have released : pool.release rate now = now + 1 / rate := by
    rw [release, refill_early early.le, empty, shortage, if_neg (by simp), sub_zero]
  obtain ⟨start, before, excess⟩ := paced.tight
  intro bounded
  have bound := bounded start (pool.release rate now + (pool.last - now) / 2 - start) (by linarith)
  have earlier : releases.countP (fun instant => start ≤ instant) ≤ releases.countP fun instant =>
        start ≤ instant ∧ instant < start + (pool.release rate now + (pool.last - now) / 2 - start) := by
    refine countP_mono_left fun instant member counted => ?_
    have := paced.latest instant member
    have counted : start ≤ instant := by simpa using counted
    simp only [decide_eq_true_eq]
    exact ⟨counted, by linarith⟩
  have counts : (releases.countP (fun instant => start ≤ instant) : K) + 1 ≤
      ((releases ++ pool.release rate now :: later).countP fun instant =>
        start ≤ instant ∧ instant < start + (pool.release rate now + (pool.last - now) / 2 - start) : Nat) := by
    rw [countP_append, countP_cons, if_pos (by simp; constructor <;> linarith)]
    norm_cast
    omega
  have gained : rate * (pool.release rate now + (pool.last - now) / 2 - start) =
      rate * (pool.last - start) + 1 - rate * ((pool.last - now) / 2) := by
    rw [released]
    field_simp
    ring
  have lost : 0 < rate * ((pool.last - now) / 2) := mul_pos filling (by linarith)
  linarith

theorem trace_readings (rate : K) (pool : Reservoir capacity) (readings : List K) :
    (pool.trace rate readings).map Prod.fst = readings := by
  induction readings generalizing pool with
  | nil => rfl
  | cons now rest ih => rw [trace, map_cons, ih]

/-- The releases keep to the rate exactly if no request reads the clock before
the release of an earlier one. -/
theorem Paced.bounded_iff (filling : 0 < rate) (roomy : 1 ≤ capacity) (paced : Paced rate pool reading releases)
    (bounded : Bounded rate capacity releases) (forward : (reading :: readings).Pairwise (· ≤ ·)) :
    Bounded rate capacity (releases ++ (pool.trace rate readings).map Prod.snd) ↔
      (∀ instant ∈ releases, ∀ now ∈ readings, instant ≤ now) ∧
        (pool.trace rate readings).Pairwise fun earlier later => earlier.2 ≤ later.1 := by
  induction readings generalizing pool reading releases with
  | nil => simpa [trace] using bounded
  | cons now rest ih =>
      obtain ⟨first, forward⟩ := pairwise_cons.mp forward
      have onward : reading ≤ now := first now mem_cons_self
      rw [trace, map_cons, pairwise_cons]
      by_cases turn : pool.last ≤ now
      · have next := ih (paced.take filling roomy turn) (paced.bounded_snoc filling roomy turn bounded) forward
        rw [append_assoc, singleton_append] at next
        rw [next]
        have after : (∀ later ∈ (pool.take rate now).trace rate rest, pool.release rate now ≤ later.1) ↔
            ∀ later ∈ rest, pool.release rate now ≤ later := by
          conv_rhs => rw [← trace_readings rate (pool.take rate now) rest]
          simp
        have passed : ∀ instant ∈ releases, instant ≤ now :=
          fun instant member => (paced.latest instant member).trans turn
        rw [after, forall_mem_append, forall_mem_singleton]
        simp only [forall_mem_cons]
        constructor
        · rintro ⟨⟨earlier, this⟩, rest⟩
          exact ⟨fun instant member => ⟨passed instant member, earlier instant member⟩, this, rest⟩
        · rintro ⟨earlier, this, rest⟩
          exact ⟨⟨fun instant member => (earlier instant member).2, this⟩, rest⟩
      · have early : now < pool.last := not_le.mp turn
        constructor
        · intro bounded
          exact absurd bounded (paced.overfull filling onward early)
        · rintro ⟨earlier, -⟩
          rcases paced.origin with started | released
          · exact absurd (started.trans onward) turn
          · exact absurd (earlier _ released now mem_cons_self) turn

variable (rate) in
def levelOf (pool : Option (Reservoir capacity)) (instant : K) : K :=
  pool.elim capacity fun pool => pool.level rate instant

variable (rate) in
def drawFrom (pool : Option (Reservoir capacity)) (now delay : K) : Reservoir capacity :=
  (pool.getD (full now)).draw rate now delay

/-- The reservoir, if there is one yet, has not been brought beyond the instant. -/
def StandsBy (pool : Option (Reservoir capacity)) (instant : K) : Prop :=
  ∀ opened ∈ pool, opened.last ≤ instant

variable (rate) in
/-- The second reservoir is at most one token behind, once both stand by. -/
def Trails (ahead behind : Option (Reservoir capacity)) : Prop :=
  ∀ instant, StandsBy ahead instant → StandsBy behind instant →
    levelOf rate ahead instant - 1 ≤ levelOf rate behind instant

variable {behind : Option (Reservoir capacity)}

omit [Field K] [IsStrictOrderedRing K] in
theorem StandsBy.mono (stands : StandsBy ahead now) (later : now ≤ instant) : StandsBy ahead instant :=
  fun opened same => (stands opened same).trans later

omit [Field K] [IsStrictOrderedRing K] in
theorem StandsBy.getD (stands : StandsBy ahead now) : (ahead.getD (full now)).last ≤ now := by
  cases ahead with
  | none => exact le_rfl
  | some opened => exact stands opened rfl

theorem level_getD (filling : 0 ≤ rate) (later : now ≤ instant) :
    (ahead.getD (full now)).level rate instant = levelOf rate ahead instant := by
  cases ahead with
  | none => exact min_eq_left (le_add_of_nonneg_right (mul_nonneg filling (sub_nonneg.mpr later)))
  | some opened => rfl

theorem level_draw (filling : 0 ≤ rate) (waits : 0 ≤ delay) (at_ : max pool.last (now + delay) = since) :
    (pool.draw rate now delay).level rate instant =
      min capacity (pool.level rate since + rate * (instant - since) - 1) := by
  rw [level, draw_tokens filling waits, draw_last waits, at_, sub_add_eq_add_sub]

theorem trails_refl (pool : Option (Reservoir capacity)) : Trails rate pool pool :=
  fun _ _ _ => sub_le_self _ zero_le_one

theorem trails_drawFrom (filling : 0 ≤ rate) (waits : 0 ≤ delay) :
    Trails rate ahead (some (drawFrom rate ahead now delay)) := by
  intro instant _ stands
  have since : max (ahead.getD (full now)).last (now + delay) ≤ instant := by
    rw [← draw_last waits]
    exact stands _ rfl
  have later : now ≤ instant := (le_add_of_nonneg_right waits).trans ((le_max_right _ _).trans since)
  change _ ≤ (drawFrom rate ahead now delay).level rate instant
  rw [← level_getD filling later, drawFrom, level_draw filling waits rfl]
  refine le_min ?_ ?_
  · exact (sub_le_self _ zero_le_one).trans (level_capped _ _ _)
  · rw [← level_later filling since]
    exact sub_le_sub_right (min_le_right _ _) 1

/-- The distance stays if both are drawn from in their turn. -/
theorem Trails.drawFrom (filling : 0 ≤ rate) (trails : Trails rate ahead behind) (waits : 0 ≤ delay)
    (waits' : 0 ≤ delay') (turn : StandsBy ahead now) (turn' : StandsBy behind now) :
    Trails rate (some (drawFrom rate ahead now delay)) (some (drawFrom rate behind now delay')) := by
  intro instant stands stands'
  have later : now ≤ now + delay := le_add_of_nonneg_right waits
  have later' : now ≤ now + delay' := le_add_of_nonneg_right waits'
  have since : max (ahead.getD (full now)).last (now + delay) = now + delay := max_eq_right (turn.getD.trans later)
  have since' : max (behind.getD (full now)).last (now + delay') = now + delay' :=
    max_eq_right (turn'.getD.trans later')
  have reached' : now + delay' ≤ instant := by
    rw [← since', ← draw_last waits']
    exact stands' _ rfl
  -- the distance when the first of the two was drawn from
  have apart := trails (now + delay) (turn.mono later) (turn'.mono later)
  rw [← level_getD filling later, ← level_getD filling later] at apart
  have comes := mul_nonneg filling (sub_nonneg.mpr reached')
  change (Reservoir.drawFrom rate ahead now delay).level rate instant - 1 ≤
    (Reservoir.drawFrom rate behind now delay').level rate instant
  rw [Reservoir.drawFrom, Reservoir.drawFrom, level_draw filling waits since, level_draw filling waits' since']
  have left := min_le_left capacity
    ((ahead.getD (full now)).level rate (now + delay) + rate * (instant - (now + delay)) - 1)
  have right := min_le_right capacity
    ((ahead.getD (full now)).level rate (now + delay) + rate * (instant - (now + delay)) - 1)
  have bound := level_le rate (behind.getD (full now)) (now + delay)
  refine le_min (by linarith) ?_
  have choice : (behind.getD (full now)).level rate (now + delay') = capacity ∨
      (behind.getD (full now)).level rate (now + delay') =
        (behind.getD (full now)).tokens + rate * (now + delay' - (behind.getD (full now)).last) := min_choice _ _
  rcases choice with above | under
  · linarith
  · linarith

/-- A request at the same reading of the clock waits at most for one token more
exactly if the tokens that it finds allow it. -/
theorem shortage_le_iff (filling : 0 < rate) :
    shortage rate found' ≤ shortage rate found + 1 / rate ↔ min 0 (found - 1) ≤ found' := by
  have scaled : shortage rate found' ≤ shortage rate found + 1 / rate ↔
      rate * shortage rate found' ≤ rate * shortage rate found + 1 := by
    rw [← mul_le_mul_iff_right₀ filling, mul_add, mul_one_div_cancel filling.ne']
  rw [scaled, mul_shortage filling, mul_shortage filling]
  rcases le_total 1 found with enough | short
  · rw [max_eq_left (sub_nonpos.mpr enough), min_eq_left (sub_nonneg.mpr enough), zero_add, max_le_iff]
    constructor
    · rintro ⟨-, bound⟩
      linarith
    · intro bound
      exact ⟨zero_le_one, by linarith⟩
  · rw [max_eq_right (sub_nonneg.mpr short), min_eq_right (sub_nonpos.mpr short), max_le_iff]
    constructor
    · rintro ⟨-, bound⟩
      linarith
    · intro bound
      exact ⟨by linarith, by linarith⟩

theorem Trails.shortage_le (filling : 0 < rate) (trails : Trails rate ahead behind) (turn : StandsBy ahead now)
    (turn' : StandsBy behind now) :
    shortage rate (levelOf rate behind now) ≤ shortage rate (levelOf rate ahead now) + 1 / rate :=
  (shortage_le_iff filling).mpr ((min_le_right _ _).trans (trails now turn turn'))

end Reservoir

end Sendplane.Data
