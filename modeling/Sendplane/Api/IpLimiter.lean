import Mathlib.Algebra.Order.Field.Rat
import Sendplane.Data.Reservoir
import Sendplane.Store.Basic

namespace Sendplane.Api

open Data Store Reservoir List

def ipBurst : Rat := 60
def ipRefillRate : Rat := 20
def ipIdleTTL : Rat := 600
def ipMaxEntries : Nat := 50000

/-- A bucket stands at the instant it was last seen. -/
abbrev IpBucket := Reservoir ipBurst

/-- One bucket for each client address.  Instants are seconds, as exact rationals. -/
structure IpLimiter where
  buds : Table Text IpBucket := ∅
  swept : Rat

/-- Drops the buckets that have been idle for long. -/
def IpLimiter.sweep (l : IpLimiter) (now : Rat) : IpLimiter :=
  if now - l.swept < ipIdleTTL then l
  else { buds := l.buds.filter fun _ b => !decide (ipIdleTTL < now - b.last), swept := now }

def spend (b : IpBucket) (now : Rat) : Bool × IpBucket :=
  let filled : IpBucket := ⟨b.level ipRefillRate now, now, level_capped _ _ _⟩
  if filled.tokens < 1 then (false, filled)
  else (true, ⟨filled.tokens - 1, now, (sub_le_self _ zero_le_one).trans filled.capped⟩)

def IpLimiter.allow (l : IpLimiter) (now : Rat) (ip : Text) : Bool × IpLimiter :=
  let l := l.sweep now
  if l.buds[ip]? = none ∧ ipMaxEntries ≤ l.buds.size then (true, l)
  else
    let served := spend (l.buds[ip]?.getD (full now)) now
    (served.1, { l with buds := l.buds.insert ip served.2 })

/-- The answers to a sequence of requests. -/
def IpLimiter.serve : IpLimiter → List (Rat × Text) → List (Rat × Text × Bool)
  | _, [] => []
  | l, (now, ip) :: rest => (now, ip, (l.allow now ip).1) :: serve (l.allow now ip).2 rest

/-- Every request finds fewer than the most addresses tracked. -/
def IpLimiter.Roomy : IpLimiter → List (Rat × Text) → Prop
  | _, [] => True
  | l, (now, ip) :: rest => (l.sweep now).buds.size < ipMaxEntries ∧ Roomy (l.allow now ip).2 rest

instance decidableRoomy : ∀ l calls, Decidable (IpLimiter.Roomy l calls)
  | _, [] => .isTrue trivial
  | l, (now, ip) :: rest =>
      have := decidableRoomy (l.allow now ip).2 rest
      inferInstanceAs (Decidable (_ ∧ _))

/-- The answers of a bucket that is never dropped. -/
def own : Option IpBucket → List Rat → List (Rat × Bool)
  | _, [] => []
  | b, now :: rest => (now, (spend (b.getD (full now)) now).1) :: own (some (spend (b.getD (full now)) now).2) rest

def admitted (answers : List (Rat × Bool)) : List Rat :=
  (answers.filter Prod.snd).map Prod.fst

def requestsOf (ip : Text) (calls : List (Rat × Text)) : List Rat :=
  (calls.filter fun call => call.2 = ip).map Prod.fst

def answersTo (ip : Text) (log : List (Rat × Text × Bool)) : List (Rat × Bool) :=
  (log.filter fun entry => entry.2.1 = ip).map fun entry => (entry.1, entry.2.2)

theorem admit_congr {b kept : IpBucket} (same : b.level ipRefillRate now = kept.level ipRefillRate now) :
    spend b now = spend kept now := by
  simp only [spend, same]

/-- The address has used up what it may use in some window up to the instant. -/
def UsedUp (before : List Rat) (now : Rat) : Prop :=
  ∃ start ≤ now, ipBurst + ipRefillRate * (now - start) < (before.countP fun instant => start ≤ instant : Nat) + 1

theorem own_spec {b : IpBucket} (paced : Paced ipRefillRate b reading releases) (stands : b.last ≤ reading)
    (bounded : Bounded ipRefillRate ipBurst releases) (forward : (reading :: times).Pairwise (· ≤ ·)) :
    Bounded ipRefillRate ipBurst (releases ++ admitted (own (some b) times)) ∧
      ∀ front now back, own (some b) times = front ++ (now, false) :: back → UsedUp (releases ++ admitted front) now := by
  have filling : 0 < ipRefillRate := by decide
  have roomy : 1 ≤ ipBurst := by decide
  induction times generalizing b reading releases with
  | nil => exact ⟨by simpa [own, admitted] using bounded, fun front now back none => by simp [own] at none⟩
  | cons now rest ih =>
      obtain ⟨first, forward⟩ := pairwise_cons.mp forward
      have turn : b.last ≤ now := stands.trans (first now mem_cons_self)
      rw [own, Option.getD_some]
      by_cases short : b.level ipRefillRate now < 1
      · have filled := paced.fill filling turn (level_capped _ _ _)
        obtain ⟨later, used⟩ := ih filled le_rfl bounded forward
        simp only [spend, if_pos short]
        refine ⟨later, fun front instant back split => ?_⟩
        cases front with
        | nil =>
            cases split
            obtain ⟨start, before, tight⟩ := filled.tight
            refine ⟨start, before, ?_⟩
            rw [admitted, filter_nil, map_nil, append_nil]
            dsimp only at tight
            linarith
        | cons answer front =>
            obtain ⟨rfl, remains⟩ := cons.inj split
            simpa [admitted] using used _ _ _ remains
      · have capped := (sub_le_self _ zero_le_one).trans (level_capped ipRefillRate b now)
        obtain ⟨released, drawn⟩ := take_of_enough filling roomy turn (not_lt.mp short) capped
        have next := paced.take filling roomy turn
        have bounded := paced.bounded_snoc filling roomy turn bounded
        rw [released] at next bounded
        rw [drawn] at next
        obtain ⟨later, used⟩ := ih next le_rfl bounded forward
        simp only [spend, if_neg short]
        refine ⟨by simpa [admitted] using later, fun front instant back split => ?_⟩
        cases front with
        | nil => cases split
        | cons answer front =>
            obtain ⟨rfl, remains⟩ := cons.inj split
            simpa [admitted] using used _ _ _ remains

theorem own_none (forward : times.Pairwise (· ≤ ·)) : Bounded ipRefillRate ipBurst (admitted (own none times)) ∧
    ∀ front now back, own none times = front ++ (now, false) :: back → UsedUp (admitted front) now := by
  have empty : Bounded ipRefillRate ipBurst [] := bounded_nil (by decide) (by decide)
  cases times with
  | nil => exact ⟨empty, fun front now back none => by simp [own] at none⟩
  | cons first rest =>
      have sorted := pairwise_cons.mpr ⟨forall_mem_cons.mpr ⟨le_rfl, (pairwise_cons.mp forward).1⟩, forward⟩
      have spec := own_spec (paced_full (by decide)) le_rfl empty sorted
      rw [own, Option.getD_some] at spec
      rwa [own, Option.getD_none]

theorem sweep_cases (l : IpLimiter) (ip : Text) : (l.sweep now).buds[ip]? = l.buds[ip]? ∨
    (l.sweep now).buds[ip]? = none ∧ ∃ b, l.buds[ip]? = some b ∧ ipIdleTTL < now - b.last := by
  unfold IpLimiter.sweep
  split
  · exact .inl rfl
  · dsimp only
    rw [Std.ExtTreeMap.getElem?_filter']
    cases l.buds[ip]? with
    | none => exact .inl rfl
    | some b =>
        by_cases idle : ipIdleTTL < now - b.last
        · rw [Option.filter_some, if_neg (by simp only [idle, decide_true]; decide)]
          exact .inr ⟨rfl, b, rfl, idle⟩
        · rw [Option.filter_some, if_pos (by simp only [idle, decide_false]; rfl)]
          exact .inl rfl

theorem level_idle {b : IpBucket} (held : 0 ≤ b.tokens) (idle : ipIdleTTL < now - b.last) (later : now ≤ instant) :
    b.level ipRefillRate instant = ipBurst := by
  have idle : (600 : Rat) < now - b.last := idle
  apply min_eq_left
  change (60 : Rat) ≤ b.tokens + 20 * (instant - b.last)
  linarith

theorem admit_sound {b : IpBucket} (held : 0 ≤ b.tokens) (stands : b.last ≤ now) :
    0 ≤ (spend b now).2.tokens ∧ (spend b now).2.last = now := by
  have level : 0 ≤ b.level ipRefillRate now :=
    le_min (by decide) (add_nonneg held (mul_nonneg (by decide) (sub_nonneg.mpr stands)))
  unfold spend
  dsimp only
  split
  · exact ⟨level, rfl⟩
  next enough => exact ⟨sub_nonneg.mpr (not_lt.mp enough), rfl⟩

/-- Each address is answered as if its bucket were never dropped. -/
theorem serve_eq_own {l : IpLimiter} (sound : ∀ b ∈ l.buds[ip]?, 0 ≤ b.tokens ∧ b.last ≤ clock)
    (same : ∀ instant, clock ≤ instant → levelOf ipRefillRate l.buds[ip]? instant = levelOf ipRefillRate kept instant)
    (forward : (clock :: calls.map Prod.fst).Pairwise (· ≤ ·)) (roomy : l.Roomy calls) :
    answersTo ip (l.serve calls) = own kept (requestsOf ip calls) := by
  induction calls generalizing l clock kept with
  | nil => rfl
  | cons call rest ih =>
      obtain ⟨now, addr⟩ := call
      obtain ⟨first, forward⟩ := pairwise_cons.mp forward
      have turn : clock ≤ now := first now mem_cons_self
      obtain ⟨room, roomy⟩ := roomy
      have level : ∀ instant, now ≤ instant →
          levelOf ipRefillRate (l.sweep now).buds[ip]? instant = levelOf ipRefillRate kept instant := by
        intro instant later
        rw [← same instant (turn.trans later)]
        rcases sweep_cases l ip with kept | ⟨dropped, b, tracked, idle⟩
        · rw [kept]
        · rw [dropped, tracked]
          exact (level_idle (sound b tracked).1 idle later).symm
      have sound : ∀ b ∈ (l.sweep now).buds[ip]?, 0 ≤ b.tokens ∧ b.last ≤ now := by
        intro b tracked
        rcases sweep_cases l ip with kept | ⟨dropped, -⟩
        · exact (sound b (kept ▸ tracked)).imp_right (·.trans turn)
        · rw [dropped] at tracked
          cases tracked
      have fits : ¬((l.sweep now).buds[addr]? = none ∧ ipMaxEntries ≤ (l.sweep now).buds.size) :=
        fun crowded => absurd crowded.2 (not_le.mpr room)
      simp only [IpLimiter.allow, if_neg fits] at roomy
      simp only [IpLimiter.serve, IpLimiter.allow, if_neg fits]
      by_cases asks : addr = ip
      · subst asks
        have alike : spend ((l.sweep now).buds[addr]?.getD (full now)) now = spend (kept.getD (full now)) now := by
          apply admit_congr
          rw [level_getD (by decide) le_rfl, level_getD (by decide) le_rfl, level now le_rfl]
        have stands : 0 ≤ ((l.sweep now).buds[addr]?.getD (full now)).tokens ∧
            ((l.sweep now).buds[addr]?.getD (full now)).last ≤ now := by
          cases tracked : (l.sweep now).buds[addr]? with
          | none => exact ⟨show (0 : Rat) ≤ 60 by decide, le_rfl⟩
          | some b => exact sound b tracked
        have next := admit_sound stands.1 stands.2
        rw [alike] at next roomy ⊢
        have stored : ((l.sweep now).buds.insert addr (spend (kept.getD (full now)) now).2)[addr]? = _ :=
          Table.get_insert_same _ _ _
        have tail := ih (by rintro b tracked; cases stored.symm.trans tracked; exact ⟨next.1, next.2.le⟩)
          (fun _ _ => by rw [stored]) forward roomy
        simpa [answersTo, requestsOf, own] using tail
      · have stored : ((l.sweep now).buds.insert addr
            (spend ((l.sweep now).buds[addr]?.getD (full now)) now).2)[ip]? = (l.sweep now).buds[ip]? :=
          Table.get_insert_ne asks
        have tail := ih (stored ▸ sound) (by rwa [stored]) forward roomy
        simpa [answersTo, requestsOf, asks] using tail

/-- Within fewer than the most addresses, no address gets more than its budget in
any window, one is refused only when the budget is used up, the sweep changes no
answer, and it leaves no idle bucket. -/
theorem ipLimiter_keeps_rate (swept : Rat) (calls : List (Rat × Text))
    (forward : (calls.map Prod.fst).Pairwise (· ≤ ·)) (roomy : IpLimiter.Roomy { swept } calls) (ip : Text) :
    (∀ start length, 0 ≤ length → ((admitted (answersTo ip (IpLimiter.serve { swept } calls))).countP fun instant =>
        start ≤ instant ∧ instant ≤ start + length : Nat) ≤ ipBurst + ipRefillRate * length) ∧
    (∀ front now back, answersTo ip (IpLimiter.serve { swept } calls) = front ++ (now, false) :: back →
      UsedUp (admitted front) now) ∧ answersTo ip (IpLimiter.serve { swept } calls) = own none (requestsOf ip calls) ∧
    ∀ (l : IpLimiter) (now : Rat), ipIdleTTL ≤ now - l.swept → ∀ (address : Text) (b : IpBucket),
      (l.sweep now).buds[address]? = some b → now - b.last ≤ ipIdleTTL := by
  have answers : answersTo ip (IpLimiter.serve { swept } calls) = own none (requestsOf ip calls) := by
    cases calls with
    | nil => rfl
    | cons call rest =>
        have sorted : (call.1 :: (call :: rest).map Prod.fst).Pairwise (· ≤ ·) :=
          pairwise_cons.mpr ⟨forall_mem_cons.mpr ⟨le_rfl, (pairwise_cons.mp forward).1⟩, forward⟩
        exact serve_eq_own (by simp) (by simp) sorted roomy
  have sorted : (requestsOf ip calls).Pairwise (· ≤ ·) := forward.sublist (filter_sublist.map _)
  obtain ⟨bounded, used⟩ := own_none sorted
  rw [answers]
  refine ⟨bounded.closed, used, rfl, fun l now due address b tracked => ?_⟩
  simp only [IpLimiter.sweep, if_neg (not_lt.mpr due), Std.ExtTreeMap.getElem?_filter', Option.filter_eq_some_iff] at tracked
  simpa using tracked.2

/-- One address more than exhausts its bucket while another has one request, and
both come back after the sweep. -/
def burst : List (Rat × Text) :=
  (0, text "b") :: replicate 61 (0, text "a") ++ [(700, text "b"), (700, text "a")]

theorem burst_held_to_rate :
    answersTo (text "a") (IpLimiter.serve { swept := 0 } burst) = replicate 60 (0, true) ++ [(0, false), (700, true)] ∧
      ((admitted (answersTo (text "a") (IpLimiter.serve { swept := 0 } burst))).countP fun instant =>
        0 ≤ instant ∧ instant ≤ 0 + 0 : Nat) ≤ ipBurst + ipRefillRate * 0 ∧ UsedUp (replicate 60 0) 0 := by
  have answers : answersTo (text "a") (IpLimiter.serve { swept := 0 } burst) =
      replicate 60 (0, true) ++ [(0, false), (700, true)] := by decide +kernel
  obtain ⟨bounded, used, _⟩ := ipLimiter_keeps_rate 0 burst (by decide +kernel) (by decide +kernel) (text "a")
  exact ⟨answers, bounded 0 0 le_rfl, used _ 0 _ answers⟩

end Sendplane.Api
