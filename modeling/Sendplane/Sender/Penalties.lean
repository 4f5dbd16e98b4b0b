import Sendplane.Sender.Limiter

namespace Sendplane.Sender

open Data Store
open Sender.Process (Key)

/-- Calls of a limiter: a penalty halves rates, and a reading lets one recover. -/
inductive Event where
  | reserve (call : Limiter.Call)
  | penalize (names : List Text) (now : Rat)
  | rate (name : Text) (now : Rat)

namespace Limiter

def handle (l : Limiter) : Event → Limiter
  | .reserve call => (l.answer call).2
  | .penalize names now => l.penalize names now
  | .rate name now => { l with buckets := l.buckets.modify name fun b => b.advance now }

def serve (l : Limiter) (events : List Event) : Limiter :=
  events.foldl handle l

end Limiter

/-- What the event may do to the bucket: set its share to one of `shares`, and
slow it down if `penalties` are allowed. -/
def Event.Within (name : Text) (shares : Rat → Prop) (penalties : Prop) : Event → Prop
  | .reserve call => ∀ k ∈ call.keys, Limiter.limited k = true → k.name = name → shares (call.share k)
  | .penalize names _ => name ∈ names → penalties
  | .rate _ _ => True

namespace Bucket

variable {b : Bucket} {now share : Rat}

/-- A property of buckets that everything but a penalty keeps. -/
structure Invariant (shares : Rat → Prop) (holds : Bucket → Prop) : Prop where
  fresh : ∀ now share, shares share → holds (setShare { last := now } share)
  setShare : ∀ b share, shares share → holds b → holds (b.setShare share)
  advance : ∀ b now, holds b → holds (b.advance now)
  spend : ∀ b, holds b → holds b.spend

/-- The rate is positive and never above the share. -/
structure Sane (b : Bucket) : Prop where
  started : b.started = true
  positive : 0 < b.rate
  bounded : b.rate ≤ b.share
  follows : b.penalized = false → b.rate = b.share

theorem recover_cases (sane : Sane b) (passed : 0 < elapsed) :
    b.recover elapsed = b ∨ ∃ rate penalized, b.recover elapsed = { b with rate, penalized } ∧ b.rate ≤ rate ∧
      rate ≤ b.share ∧ (penalized = false → rate = b.share) := by
  unfold recover
  split
  · have grows : b.rate ≤ b.rate * (1 + recoveryPerMinute * (elapsed / 60)) := by
      have factor : 0 ≤ recoveryPerMinute * (elapsed / 60) := by
        unfold recoveryPerMinute
        linarith
      nlinarith [mul_nonneg sane.positive.le factor]
    dsimp only
    split
    · exact .inr ⟨b.share, false, rfl, sane.bounded, le_rfl, fun _ => rfl⟩
    case isFalse less =>
      refine .inr ⟨_, b.penalized, rfl, grows, (not_le.mp less).le, fun steady => ?_⟩
      simp_all
  · exact .inl rfl

theorem advance_cases (sane : Sane b) (now : Rat) :
    ∃ rate penalized tokens last, b.advance now = { b with rate, penalized, tokens, last } ∧ b.rate ≤ rate ∧
      rate ≤ b.share ∧ (penalized = false → rate = b.share) := by
  unfold advance
  split
  · exact ⟨_, _, _, _, rfl, le_rfl, sane.bounded, sane.follows⟩
  dsimp only
  split
  · exact ⟨_, _, _, _, rfl, le_rfl, sane.bounded, sane.follows⟩
  case isFalse passed =>
    have later : Sane { b with last := now } := ⟨sane.started, sane.positive, sane.bounded, sane.follows⟩
    obtain same | ⟨rate, penalized, recovered, grows, bounded, follows⟩ := recover_cases later (not_le.mp passed)
    · rw [same]
      split <;> exact ⟨_, _, _, _, rfl, le_rfl, sane.bounded, sane.follows⟩
    · rw [recovered]
      split <;> exact ⟨_, _, _, _, rfl, grows, bounded, follows⟩

theorem Sane.advance (sane : Sane b) (now : Rat) :
    Sane (b.advance now) ∧ b.rate ≤ (b.advance now).rate ∧ (b.advance now).share = b.share := by
  obtain ⟨rate, penalized, tokens, last, advanced, grows, bounded, follows⟩ := advance_cases sane now
  rw [advanced]
  exact ⟨⟨sane.started, sane.positive.trans_le grows, bounded, follows⟩, grows, rfl⟩

theorem Sane.setShare (sane : Sane b) (positive : 0 < share) :
    Sane (b.setShare share) ∧ (b.setShare share).share = share ∧
      (b.share = share → (b.setShare share).rate = b.rate) := by
  unfold Bucket.setShare
  simp only [sane.started, Bool.not_true, Bool.false_eq_true]
  cases penalized : b.penalized with
  | false =>
      simp only [Bool.not_false, ↓reduceIte, true_and]
      exact ⟨⟨rfl, positive, le_rfl, fun _ => rfl⟩, fun same => same ▸ (sane.follows penalized).symm⟩
  | true =>
      simp only [Bool.not_true, Bool.false_eq_true, ↓reduceIte]
      split
      case isTrue recovered =>
        refine ⟨⟨rfl, positive, le_rfl, fun _ => rfl⟩, rfl, fun same => ?_⟩
        exact le_antisymm recovered (same ▸ sane.bounded)
      case isFalse less =>
        refine ⟨⟨rfl, sane.positive, (not_le.mp less).le, fun steady => ?_⟩, rfl, fun _ => rfl⟩
        simp_all

theorem penalize_rate (b : Bucket) (now : Rat) :
    (b.penalize now).rate = max ((b.advance now).rate / 2) ((b.advance now).share * minShareFraction) := by
  unfold penalize
  dsimp only
  split <;> rfl

theorem Sane.penalize_rate_le_iff (sane : Sane b) (now : Rat) :
    (b.penalize now).rate ≤ (b.advance now).rate ↔ b.share * minShareFraction ≤ (b.advance now).rate := by
  obtain ⟨advanced, -, same⟩ := sane.advance now
  rw [penalize_rate, same, max_le_iff]
  exact and_iff_right (by linarith [advanced.positive])

theorem Sane.penalize (sane : Sane b) (now : Rat) :
    Sane (b.penalize now) ∧ (b.penalize now).share = b.share ∧ b.share * minShareFraction ≤ (b.penalize now).rate := by
  obtain ⟨advanced, -, same⟩ := sane.advance now
  have rate := penalize_rate b now
  have shared : (b.penalize now).share = b.share := by
    rw [← same]
    unfold Bucket.penalize
    dsimp only
    split <;> rfl
  have floor : (b.advance now).share * minShareFraction ≤ (b.advance now).share := by
    unfold minShareFraction
    linarith [advanced.positive, advanced.bounded]
  refine ⟨⟨?_, ?_, ?_, ?_⟩, shared, ?_⟩
  · unfold Bucket.penalize
    dsimp only
    split <;> exact advanced.started
  · rw [rate]
    exact lt_max_of_lt_left (half_pos advanced.positive)
  · rw [rate, shared, ← same]
    exact max_le (by linarith [advanced.positive, advanced.bounded]) floor
  · unfold Bucket.penalize
    dsimp only
    split <;> simp
  · rw [rate, same]
    exact le_max_right _ _

theorem sane_fresh (now : Rat) (positive : 0 < share) :
    Sane (setShare { last := now } share) ∧ (setShare { last := now } share).rate = share ∧
      (setShare { last := now } share).share = share :=
  ⟨⟨rfl, positive, le_rfl, fun _ => rfl⟩, rfl, rfl⟩

theorem invariant_floor (below : bound ≤ share) :
    Invariant (fun given => given = share ∧ 0 < given) fun b => Sane b ∧ b.share = share ∧ bound ≤ b.rate where
  fresh := by
    rintro now _ ⟨rfl, positive⟩
    exact ⟨(sane_fresh now positive).1, rfl, below⟩
  setShare := by
    rintro b _ ⟨rfl, positive⟩ ⟨sane, shared, above⟩
    obtain ⟨kept, same, rate⟩ := sane.setShare positive
    exact ⟨kept, same, by rwa [rate shared]⟩
  advance := by
    rintro b now ⟨sane, shared, above⟩
    obtain ⟨kept, grows, same⟩ := sane.advance now
    exact ⟨kept, same.trans shared, above.trans grows⟩
  spend b kept := ⟨⟨kept.1.started, kept.1.positive, kept.1.bounded, kept.1.follows⟩, kept.2⟩

theorem invariant_sane : Invariant (0 < ·) Sane where
  fresh now _ positive := (sane_fresh now positive).1
  setShare _ _ positive sane := (sane.setShare positive).1
  advance _ now sane := (sane.advance now).1
  spend _ sane := ⟨sane.started, sane.positive, sane.bounded, sane.follows⟩

end Bucket

namespace Limiter

variable {l : Limiter} {name : Text} {shares : Rat → Prop} {holds : Bucket → Prop} {absent penalties : Prop}

/-- The bucket of the name has the property; `absent` if there is none. -/
def Keeps (name : Text) (holds : Bucket → Prop) (absent : Prop) (l : Limiter) : Prop :=
  (l.buckets[name]?).elim absent holds

theorem Keeps.modify (keeps : l.Keeps name holds absent) (kept : other = name → ∀ b, holds b → holds (change b)) :
    Keeps name holds absent { l with buckets := l.buckets.modify other change } := by
  unfold Keeps at keeps ⊢
  simp only [Table.get_modify]
  split
  case isTrue same =>
    cases stored : l.buckets[name]? with
    | none => simpa [stored] using keeps
    | some b =>
        rw [stored] at keeps
        exact kept same b keeps
  · exact keeps

variable (invariant : Bucket.Invariant shares holds)
include invariant

theorem Keeps.enter (keeps : e.limiter.Keeps name holds absent) (now : Rat) (workers : Option Int)
    (within : limited k = true → k.name = name → shares (k.rate / replicas workers)) :
    (Limiter.enter now workers e k).limiter.Keeps name holds absent := by
  unfold Limiter.enter
  split
  case isTrue limits =>
    by_cases same : k.name = name
    · subst same
      simp only [Keeps, put, Table.get_insert_same]
      apply invariant.advance
      unfold bucketLocked
      cases stored : e.limiter.buckets[k.name]? with
      | none => exact invariant.fresh now _ (within limits rfl)
      | some b =>
          rw [Keeps, stored] at keeps
          exact invariant.setShare b _ (within limits rfl) keeps
    · simpa [Keeps, put, Table.get_insert_ne same] using keeps
  · exact keeps

theorem Keeps.reserve (keeps : l.Keeps name holds absent)
    (within : (Event.reserve call).Within name shares penalties) : (l.answer call).2.Keeps name holds absent := by
  have entered (keys : List Key) (e : Entered) (subset : ∀ k ∈ keys, k ∈ call.keys)
      (keeps : e.limiter.Keeps name holds absent) :
      (keys.foldl (Limiter.enter call.now call.workers) e).limiter.Keeps name holds absent := by
    induction keys generalizing e with
    | nil => exact keeps
    | cons k rest ih =>
        obtain ⟨member, others⟩ := List.forall_mem_cons.mp subset
        exact ih _ others (keeps.enter invariant call.now call.workers (within k member))
  have left (names : List Text) (instant : Rat) (l : Limiter) (keeps : l.Keeps name holds absent) :
      (names.foldl (leave instant) l).Keeps name holds absent := by
    induction names generalizing l with
    | nil => exact keeps
    | cons other rest ih =>
        exact ih _ (keeps.modify fun _ b holds => invariant.spend _ (invariant.advance b instant holds))
  exact left _ _ _ (entered call.keys _ (fun _ member => member) keeps)

theorem Keeps.serve (keeps : l.Keeps name holds absent) (slowed : penalties → ∀ b now, holds b → holds (b.penalize now))
    (within : ∀ e ∈ events, e.Within name shares penalties) : (l.serve events).Keeps name holds absent := by
  have penalized (names : List Text) (now : Rat) (allowed : name ∈ names → penalties) (l : Limiter)
      (keeps : l.Keeps name holds absent) : (l.penalize names now).Keeps name holds absent := by
    induction names generalizing l with
    | nil => exact keeps
    | cons other rest ih =>
        refine ih (fun listed => allowed (by simp [listed])) _ (keeps.modify fun same b => ?_)
        exact slowed (allowed (by simp [same])) b now
  induction events generalizing l with
  | nil => exact keeps
  | cons e rest ih =>
      obtain ⟨first, others⟩ := List.forall_mem_cons.mp within
      refine ih ?_ others
      cases e with
      | reserve call => exact keeps.reserve invariant first
      | penalize names now => exact penalized names now first l keeps
      | rate other now => exact keeps.modify fun _ b => invariant.advance b now

omit invariant

theorem within_positive (e : Event) : e.Within name (0 < ·) True := by
  cases e with
  | reserve call =>
      intro k _ limits _
      have positive : 0 < k.rate := by
        simp only [limited, Bool.not_eq_true', Bool.or_eq_false_iff, decide_eq_false_iff_not, not_le] at limits
        exact limits.1
      exact div_pos positive replicas_pos
  | penalize => simp [Event.Within]
  | rate => trivial

variable {b : Bucket}

theorem serve_sane (stored : (serve {} history).buckets[name]? = some b) : b.Sane := by
  have kept : (serve {} history).Keeps name Bucket.Sane True :=
    Keeps.serve Bucket.invariant_sane (by simp [Keeps]) (fun _ _ now sane => (sane.penalize now).1)
      fun e _ => within_positive e
  rwa [Keeps, stored] at kept

variable {share : Rat}

theorem within_constant {e : Event} (within : e.Within name (· = share) penalties) :
    e.Within name (fun given => given = share ∧ 0 < given) penalties := by
  cases e with
  | reserve call =>
      intro k member limits same
      exact ⟨within k member limits same, within_positive (.reserve call) k member limits same⟩
  | penalize => exact within
  | rate => trivial

theorem serve_grows (sane : b.Sane) (stored : l.buckets[name]? = some b)
    (within : ∀ e ∈ later, e.Within name (· = b.share) False) :
    ∃ b', (l.serve later).buckets[name]? = some b' ∧ b.rate ≤ b'.rate := by
  have kept : (l.serve later).Keeps name (fun b' => b'.Sane ∧ b'.share = b.share ∧ b.rate ≤ b'.rate) False := by
    refine Keeps.serve (Bucket.invariant_floor sane.bounded) ?_ False.elim fun e member => within_constant (within e member)
    rw [Keeps, stored]
    exact ⟨sane, rfl, le_rfl⟩
  cases found : (l.serve later).buckets[name]? with
  | none => simp [Keeps, found] at kept
  | some b' =>
      rw [Keeps, found] at kept
      exact ⟨b', rfl, kept.2.2⟩

theorem serve_floor (within : ∀ e ∈ history, e.Within name (· = share) True)
    (stored : (serve {} history).buckets[name]? = some b) : share * minShareFraction ≤ b.rate := by
  by_cases positive : 0 < share
  · have below : share * minShareFraction ≤ share := by
      unfold minShareFraction
      linarith
    have kept : (serve {} history).Keeps name
        (fun b => b.Sane ∧ b.share = share ∧ share * minShareFraction ≤ b.rate) True := by
      refine Keeps.serve (Bucket.invariant_floor below) (by simp [Keeps]) ?_ fun e member => within_constant (within e member)
      rintro - b now ⟨sane, rfl, -⟩
      exact sane.penalize now
    rw [Keeps, stored] at kept
    exact kept.2.2
  · have negative : share * minShareFraction ≤ 0 := by
      unfold minShareFraction
      linarith
    exact negative.trans (serve_sane stored).positive.le

/-- Whatever the history, a penalty speeds the bucket up exactly if a grown share
has lifted the floor above the rate. -/
theorem rate_lawful_iff (history : List Event) (name : Text) (b : Bucket)
    (stored : (serve {} history).buckets[name]? = some b) :
    (0 < b.rate ∧ b.rate ≤ b.share) ∧
      (∀ now, (b.penalize now).rate ≤ (b.advance now).rate ↔ b.share * minShareFraction ≤ (b.advance now).rate) ∧
      (∀ later : List Event, (∀ e ∈ later, e.Within name (· = b.share) False) →
        ∃ b', ((serve {} history).serve later).buckets[name]? = some b' ∧ b.rate ≤ b'.rate) ∧
      ∀ share, (∀ e ∈ history, e.Within name (· = share) True) → share * minShareFraction ≤ b.rate := by
  have sane := serve_sane stored
  exact ⟨⟨sane.positive, sane.bounded⟩, sane.penalize_rate_le_iff, fun _ within => serve_grows sane stored within,
    fun _ within => serve_floor within stored⟩

/-- Of a hundred replicas all but one leave after a penalty: the next one more
than triples the rate. -/
theorem penalty_speeds_up :
    let call (workers : Int) : Event := .reserve ⟨[⟨text "t", 200⟩], 0, some workers⟩
    let history := [call 100, .penalize [text "t"] 0, call 1]
    ((serve {} history).buckets[text "t"]?).map (fun b => (b.share, b.rate, (b.advance 0).rate)) = some (200, 1, 1) ∧
      ((serve {} (history ++ [.penalize [text "t"] 0])).buckets[text "t"]?).map Bucket.rate = some (25 / 8) := by
  decide +kernel

def penalized : List Event :=
  [.reserve ⟨[⟨text "t", 100⟩], 0, none⟩, .penalize [text "t"] 0, .penalize [text "t"] 1,
    .reserve ⟨[⟨text "t", 100⟩], 2, none⟩]

theorem rate_lawful_when_penalized :
    ∃ b, (serve {} penalized).buckets[text "t"]? = some b ∧ b.rate < b.share ∧ 100 * minShareFraction ≤ b.rate ∧
      (b.penalize 2).rate ≤ (b.advance 2).rate := by
  have rates : ((serve {} penalized).buckets[text "t"]?).map
      (fun b => (b.rate < b.share && b.share * minShareFraction ≤ (b.advance 2).rate : Bool)) = some true := by
    decide +kernel
  obtain ⟨b, stored, facts⟩ := Option.map_eq_some_iff.mp rates
  simp only [Bool.and_eq_true, decide_eq_true_eq] at facts
  obtain ⟨_, lowers, _, floor⟩ := rate_lawful_iff penalized (text "t") b stored
  refine ⟨b, stored, facts.1, floor 100 ?_, (lowers 2).mpr facts.2⟩
  have whole : (100 : Rat) / replicas none = 100 := by decide +kernel
  simp [penalized, Event.Within, Call.share, whole]

end Limiter

end Sendplane.Sender
