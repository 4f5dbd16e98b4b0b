import Mathlib.Data.List.Induction
import Sendplane.Sender.Process
import Sendplane.Tracking.Token

namespace Sendplane.Api

open Data Data.Strings Store Sendplane.Tracking List
open Sender.Process (selectKey)

structure SigningKeyInput where
  kid : Text
  secret : Option Text := none

/-- The keys of an update of the settings.  A secret that is left out is the one in
store, and so is the age of a key. -/
def applySigningKeys (quote : Text → Text) (now : Time) (stored : List SigningKey) :
    List SigningKeyInput → List SigningKey → Except Text (List SigningKey)
  | [], keys => .ok keys
  | k :: rest, keys =>
      if trimSpace k.kid = [] then .error (text "tracking.signing_keys[].kid is required")
      else if keys.any (·.kid = k.kid) then .error (text "tracking.signing_keys has a duplicate kid " ++ quote k.kid)
      else
        let old := (stored.reverse.find? (·.kid = k.kid)).getD {}
        let secret := k.secret.getD old.secret
        if secret = [] then
          .error (text "tracking.signing_keys[" ++ quote k.kid ++ text "] has no secret and none is stored")
        else
          let createdAt := if old.createdAt = 0 then now else old.createdAt
          applySigningKeys quote now stored rest (keys ++ [{ kid := k.kid, secret, createdAt }])

variable {keys : List SigningKey}

theorem applySigningKeys_usable {quote : Text → Text}
    (accepted : applySigningKeys quote now stored input keys = .ok result)
    (usable : ∀ k ∈ keys, k.kid ≠ [] ∧ k.secret ≠ []) : ∀ k ∈ result, k.kid ≠ [] ∧ k.secret ≠ [] := by
  induction input generalizing keys with
  | nil =>
      cases accepted
      exact usable
  | cons k rest ih =>
      simp only [applySigningKeys] at accepted
      split at accepted
      · cases accepted
      next named =>
      split at accepted
      · cases accepted
      split at accepted
      · cases accepted
      next secret =>
      refine ih accepted fun other member => ?_
      rcases mem_append.mp member with earlier | last
      · exact usable other earlier
      · cases mem_singleton.mp last
        exact ⟨fun empty => named (congrArg trimSpace empty), secret⟩

/-- A key is ahead of another if it is newer, or as new with a greater ID. -/
def Ahead (k other : SigningKey) : Prop :=
  k.createdAt > other.createdAt ∨ k.createdAt = other.createdAt ∧ k.kid > other.kid

variable {k other : SigningKey}

theorem Ahead.trans (first : Ahead k other) (second : Ahead other third) : Ahead k third := by
  rcases first with newer | ⟨same, greater⟩ <;> rcases second with newer' | ⟨same', greater'⟩
  · exact .inl (newer'.trans newer)
  · exact .inl (same' ▸ newer)
  · exact .inl (same ▸ newer')
  · exact .inr ⟨same.trans same', List.lt_trans greater' greater⟩

/-- The key that is chosen: no other one is ahead of it. -/
def Foremost (keys : List SigningKey) (k : SigningKey) : Prop :=
  k ∈ keys ∧ ∀ other ∈ keys, ¬ Ahead other k

theorem Foremost.unique (first : Foremost keys k) (second : Foremost keys other) : k.kid = other.kid := by
  have behind := second.2 k first.1
  have ahead := first.2 other second.1
  simp only [Ahead, not_or, not_and, gt_iff_lt, not_lt] at behind ahead
  have age := le_antisymm behind.1 ahead.1
  exact List.le_antisymm (List.not_lt.mp (behind.2 age)) (List.not_lt.mp (ahead.2 age.symm))

theorem selectKey_foremost (usable : ∀ k ∈ keys, k.kid ≠ [] ∧ k.secret ≠ []) (given : keys ≠ []) :
    ∃ k, selectKey keys = some k ∧ Foremost keys k := by
  induction keys using reverseRecOn with
  | nil => exact absurd rfl given
  | append_singleton keys last ih =>
      have lastUsable := usable last (by simp)
      have others : ∀ k ∈ keys, k.kid ≠ [] ∧ k.secret ≠ [] := fun k member => usable k (by simp [member])
      have irreflexive : ¬ Ahead last last := by
        rintro (newer | ⟨_, greater⟩)
        · exact lt_irrefl _ newer
        · exact List.lt_irrefl _ greater
      simp only [selectKey, foldl_append, foldl_cons, foldl_nil, lastUsable, or_self, ↓reduceIte] at ih ⊢
      by_cases empty : keys = []
      · subst empty
        exact ⟨last, rfl, by simp, by simpa using irreflexive⟩
      obtain ⟨best, selected, member, foremost⟩ := ih others empty
      rw [selected]
      dsimp only
      split <;> rename_i ahead
      · refine ⟨last, rfl, by simp, fun other listed => ?_⟩
        rcases mem_append.mp listed with earlier | same
        · exact fun before => foremost other earlier (before.trans ahead)
        · exact mem_singleton.mp same ▸ irreflexive
      · refine ⟨best, rfl, by simp [member], fun other listed => ?_⟩
        rcases mem_append.mp listed with earlier | same
        · exact foremost other earlier
        · exact mem_singleton.mp same ▸ ahead

/-- The key gives every valid payload a token. -/
def Signs (signer : Signer) (k : SigningKey) : Prop :=
  ∀ p : TokenPayload, p.deliveryID ≠ [] → p.tenantID ≠ [] → signer.sign k.kid k.secret p ≠ []

theorem signs_iff (usable : k.kid ≠ [] ∧ k.secret ≠ []) : Signs signer k ↔ kidSep ∉ k.kid := by
  constructor
  · intro signs dotted
    refine signs { tenantID := [0], deliveryID := [0], kind := .opened, linkNo := 0 } (by simp) (by simp) ?_
    simp [Signer.sign, dotted]
  · intro plain p delivery tenant
    simp [Signer.sign, usable, plain, delivery, tenant]

/-- Among accepted keys one that signs is chosen whenever there is one, exactly if
the foremost has no dot in its ID or all of them have. -/
theorem selectKey_signs_iff (signer : Signer) {quote : Text → Text} {now : Time} {stored keys : List SigningKey}
    {input : List SigningKeyInput} (accepted : applySigningKeys quote now stored input [] = .ok keys) :
    ((∃ k ∈ keys, Signs signer k) → ∃ k, selectKey keys = some k ∧ Signs signer k) ↔
      (∃ k, Foremost keys k ∧ kidSep ∉ k.kid) ∨ ∀ k ∈ keys, kidSep ∈ k.kid := by
  have usable := applySigningKeys_usable accepted (by simp)
  constructor
  · intro holds
    by_cases dotted : ∀ k ∈ keys, kidSep ∈ k.kid
    · exact .inr dotted
    push Not at dotted
    obtain ⟨k, member, plain⟩ := dotted
    obtain ⟨best, selected, signs⟩ := holds ⟨k, member, (signs_iff (usable k member)).mpr plain⟩
    obtain ⟨found, same, foremost⟩ := selectKey_foremost usable (ne_nil_of_mem member)
    cases selected.symm.trans same
    exact .inl ⟨best, foremost, (signs_iff (usable best foremost.1)).mp signs⟩
  · rintro (⟨best, foremost, plain⟩ | dotted) ⟨k, member, signs⟩
    · obtain ⟨found, selected, first⟩ := selectKey_foremost usable (ne_nil_of_mem member)
      exact ⟨found, selected, (signs_iff (usable found first.1)).mpr (first.unique foremost ▸ plain)⟩
    · exact absurd (dotted k member) ((signs_iff (usable k member)).mp signs)

/-- A key in store and a newer one. -/
def rotated (kid : Text) : List SigningKey :=
  [{ kid := text "k1", secret := [1], createdAt := 1 }, { kid, secret := [2], createdAt := 2 }]

theorem rotated_signs : ∃ k, selectKey (rotated (text "k2")) = some k ∧ Signs ⟨fun _ _ => []⟩ k :=
  (selectKey_signs_iff _ (show applySigningKeys id 2 ((rotated []).take 1)
    [{ kid := text "k1" }, { kid := text "k2", secret := some [2] }] [] = .ok (rotated (text "k2")) by decide +kernel)).mpr
    (.inl ⟨{ kid := text "k2", secret := [2], createdAt := 2 }, by unfold Foremost Ahead; decide +kernel, by decide⟩)
    ⟨_, List.mem_cons_self, (signs_iff (by decide)).mpr (by decide)⟩

theorem dotted_key_selected :
    applySigningKeys id 2 ((rotated []).take 1) [{ kid := text "k1" }, { kid := text "2026.11", secret := some [2] }] [] =
      .ok (rotated (text "2026.11")) ∧
    (selectKey (rotated (text "2026.11"))).map SigningKey.kid = some (text "2026.11") ∧
    ∀ (signer : Signer) (p : TokenPayload), signer.sign (text "2026.11") [2] p = [] :=
  ⟨by decide +kernel, by decide +kernel, fun signer p => if_pos (.inr (.inl (by decide)))⟩

end Sendplane.Api
