import Mathlib.Order.Lattice
import Mathlib.Logic.Function.Basic

namespace Sendplane.Data.Lease

/-! # Leases that expire

A lease has at most one holder, and an expiry that its holder may move in either
direction.  Every bid brings its own reading of the clock, so readings need not
grow along a run.
-/

structure Held (ω τ : Type) where
  owner : ω
  expiry : τ

/-- A bid that renews is granted only while its owner holds the lease.  A
granted bid moves to the one it names. -/
structure Bid (ω τ : Type) where
  renews : Bool
  owner : ω
  now : τ
  expiry : τ

inductive Call (ω τ : Type) where
  | bid (bid : Bid ω τ)
  | release (owner : ω)

variable {ω τ : Type} [DecidableEq ω] [LinearOrder τ]

def granted (held : Option (Held ω τ)) (bid : Bid ω τ) : Bool :=
  match held with
  | none => !bid.renews
  | some held =>
      if held.owner = bid.owner then !bid.renews || bid.now < held.expiry
      else !bid.renews && held.expiry ≤ bid.now

def next (held : Option (Held ω τ)) : Call ω τ → Option (Held ω τ)
  | .bid bid => if granted held bid then some ⟨bid.owner, bid.expiry⟩ else held
  | .release owner => if held.map Held.owner = some owner then none else held

variable {owner other : ω} {expiry : τ} {held : Option (Held ω τ)}

theorem refused_of_held (foreign : offer.owner ≠ owner) (early : offer.now < expiry) :
    granted (some ⟨owner, expiry⟩) offer = false := by
  simp [granted, foreign.symm, early]

theorem renew_granted_iff (renews : offer.renews = true) :
    granted held offer = true ↔ ∃ current, held = some ⟨offer.owner, current⟩ ∧ offer.now < current := by
  rcases held with _ | ⟨holder, current⟩
  · simp [granted, renews]
  · by_cases same : holder = offer.owner <;> simp [granted, renews, same]

theorem release_of_foreign (foreign : ∀ current, held ≠ some ⟨owner, current⟩) :
    next held (.release owner) = held := by
  rcases held with _ | ⟨holder, current⟩
  · rfl
  · refine if_neg fun same => foreign current ?_
    simpa using same

/-- The owner neither releases the lease nor moves its expiry, and nobody else
is granted it at the expiry or later. -/
def Undisturbed (owner : ω) (expiry : τ) (held : Option (Held ω τ)) : Call ω τ → Prop
  | .bid bid => granted held bid = true → bid.owner ≠ owner ∧ bid.now < expiry
  | .release other => other ≠ owner

theorem next_of_undisturbed (undisturbed : Undisturbed owner expiry (some ⟨owner, expiry⟩) call) :
    next (some ⟨owner, expiry⟩) call = some ⟨owner, expiry⟩ := by
  cases call with
  | bid bid =>
      refine if_neg fun taken => ?_
      obtain ⟨foreign, early⟩ := undisturbed taken
      rw [refused_of_held foreign early] at taken
      cases taken
  | release other =>
      refine release_of_foreign fun current same => ?_
      cases same
      exact undisturbed rfl

/-- The expiry each owner last obtained and has not given up, and the readings
that came with the bids so far. -/
structure Ledger (ω τ : Type) where
  held : Option (Held ω τ) := none
  believes : ω → Option τ := fun _ => none
  readings : List τ := []

def Ledger.next (ledger : Ledger ω τ) : Call ω τ → Ledger ω τ
  | .bid bid =>
      { held := Lease.next ledger.held (.bid bid)
        believes := if granted ledger.held bid then Function.update ledger.believes bid.owner (some bid.expiry)
          else ledger.believes
        readings := bid.now :: ledger.readings }
  | .release owner =>
      { ledger with
        held := Lease.next ledger.held (.release owner)
        believes := Function.update ledger.believes owner none }

/-- An owner that no reading has proved wrong is right. -/
def Ledger.Sound (ledger : Ledger ω τ) : Prop :=
  ∀ owner expiry, ledger.believes owner = some expiry → (∀ reading ∈ ledger.readings, reading < expiry) →
    ledger.held = some ⟨owner, expiry⟩

variable {ledger : Ledger ω τ}

theorem Ledger.Sound.bid (sound : ledger.Sound) (bid : Bid ω τ) : (ledger.next (.bid bid)).Sound := by
  intro owner expiry believed current
  have early : bid.now < expiry := current _ List.mem_cons_self
  have before : ∀ reading ∈ ledger.readings, reading < expiry :=
    fun reading read => current reading (List.mem_cons_of_mem _ read)
  cases taken : granted ledger.held bid with
  | false =>
      simp only [Ledger.next, Lease.next, taken, Bool.false_eq_true] at believed ⊢
      exact sound owner expiry believed before
  | true =>
      simp only [Ledger.next, Lease.next, taken, ↓reduceIte] at believed ⊢
      by_cases same : owner = bid.owner
      · subst same
        simp only [Function.update_self, Option.some.injEq] at believed
        rw [believed]
      · -- The others were right until now, so the bid would have been refused.
        rw [Function.update_of_ne same] at believed
        rw [sound owner expiry believed before, refused_of_held (Ne.symm same) early] at taken
        cases taken

theorem Ledger.Sound.release (sound : ledger.Sound) (other : ω) : (ledger.next (.release other)).Sound := by
  intro owner expiry believed current
  by_cases same : owner = other
  · subst same
    simp [Ledger.next] at believed
  · simp only [Ledger.next, Function.update_of_ne same] at believed
    have held := sound owner expiry believed current
    have foreign : ∀ current, ledger.held ≠ some ⟨other, current⟩ := by
      rw [held]
      intro current stolen
      cases stolen
      exact same rfl
    exact (release_of_foreign foreign).trans held

theorem Ledger.Sound.next (sound : ledger.Sound) (call : Call ω τ) : (ledger.next call).Sound := by
  cases call with
  | bid bid => exact sound.bid bid
  | release owner => exact sound.release owner

omit [DecidableEq ω] in
/-- At an instant that no reading has passed, at most one owner believes that
it holds the lease. -/
theorem Ledger.Sound.one_believer (sound : ledger.Sound) (past : ∀ reading ∈ ledger.readings, reading ≤ instant)
    (one : ledger.believes owner = some first) (oneHolds : instant < first)
    (two : ledger.believes other = some second) (twoHolds : instant < second) : owner = other := by
  have held := sound owner first one fun reading read => lt_of_le_of_lt (past reading read) oneHolds
  have also := sound other second two fun reading read => lt_of_le_of_lt (past reading read) twoHolds
  rw [held] at also
  exact congrArg Held.owner (Option.some.inj also)

end Sendplane.Data.Lease
