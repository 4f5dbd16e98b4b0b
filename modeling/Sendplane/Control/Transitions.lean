import Sendplane.Control.Conduct

namespace Sendplane.Control

open Data Store Memstore Pool

/-- The campaign has another status than before. -/
def StatusMoved (before after : TenantStore) (id : Text) (old new : CampaignStatus) : Prop :=
  (before.campaigns[id]?).map Campaign.status = some old ∧
    (after.campaigns[id]?).map Campaign.status = some new ∧ old ≠ new

/-- The step moves campaigns along edges only, and not at all if it belongs to
an edit request.  No edge leaves the cancelled status. -/
def MovesAlongEdges (pool next : Workers) (move : Move Operation Err) : Prop :=
  ∀ id old new, StatusMoved pool.store next.store id old new → edge old new = true ∧ old ≠ .cancelled ∧
      ∀ call ∈ pool.nextCall move, call.1.caller ≠ .updateCampaign

variable {old new : CampaignStatus}

theorem not_cancelled_of_edge (along : edge old new = true) : old ≠ .cancelled := by
  intro cancelled
  subst cancelled
  cases new <;> cases along

theorem moved_along_edge {id : Text}
    (changes : Table.Changes (fun _ old new => RowStep caller old new) before.campaigns after.campaigns)
    (moved : StatusMoved before after id old new) : edge old new = true ∧ caller ≠ .updateCampaign := by
  obtain ⟨stored, written, different⟩ := moved
  obtain ⟨row, found, rfl⟩ := Option.map_eq_some_iff.mp stored
  obtain ⟨next, foundNext, rfl⟩ := Option.map_eq_some_iff.mp written
  obtain ⟨other, foundOther, step⟩ := changes.get found
  obtain rfl : next = other := Option.some.inj (foundNext.symm.trans foundOther)
  rcases step with same | ⟨_, ⟨_, same⟩ | ⟨_, same | ⟨operation, along⟩⟩⟩
  · exact absurd (congrArg Campaign.status same).symm different
  · exact absurd same.symm different
  · exact absurd same.symm different
  · exact ⟨along, operation⟩

/-- However the operations interleave, the status of a campaign moves along edges
only and never by an edit, as long as none comes with a newer version than it read. -/
theorem status_moves_along_edges {start pool next : Workers} {move : Move Operation Err}
    (idle : start.threads = []) (keyed : Keyed start.store) (reached : (Pool.system program).Reaches
      (Pool.Permits fun tag failure _ => EditsWhatItRead tag failure) start pool)
    (permitted : pool.Permits (fun tag failure _ => EditsWhatItRead tag failure) move)
    (stepped : (Pool.system program).step pool move = some next) : MovesAlongEdges pool next move := by
  intro id old new moved
  have ⟨_, disciplined⟩ : Keyed pool.store ∧ pool.Disciplined transitions := disciplined_of_reaches
      (fun operation _ => Obeys.program operation)
      Obeys.keyed_stable idle keyed reached
  cases move with
  | spawn operation =>
      simp only [system, Option.some.injEq] at stepped
      subst stepped
      obtain ⟨stored, written, different⟩ := moved
      exact absurd (Option.some.inj (stored.symm.trans written)) different
  | advance thread failure =>
      obtain ⟨tag, calls, effect⟩ := guarantee_of_advance disciplined permitted stepped
      cases failure with
      | none =>
          obtain ⟨along, operation⟩ := moved_along_edge effect moved
          refine ⟨along, not_cancelled_of_edge along, fun call made => ?_⟩
          rw [calls] at made
          cases made
          exact operation
      | some e =>
          rw [show next.store = pool.store from effect] at moved
          exact absurd (Option.some.inj (moved.1.symm.trans moved.2.1)) moved.2.2

instance (tag : Tag) (failure : Option Err) : Decidable (EditsWhatItRead tag failure) :=
  decidable_of_bool (match tag, failure with
    | ⟨.updateCampaign, .campaignUpdate seen written⟩, none => written.version ≤ seen.version
    | _, _ => true) <| by
      unfold EditsWhatItRead
      split <;> simp

def draftStore : TenantStore where
  clock := 5000
  campaigns := (∅ : Table Text Campaign).insert (text "c1")
    { id := text "c1", senderID := text "s1", versionID := text "v1", version := 1 }
  senders := (∅ : Table Text Sender).insert (text "s1") { id := text "s1" }
  deliveries := (∅ : Table Text Delivery).insert (text "d1") { id := text "d1", campaignID := text "c1" }

def renameUnder (version : Int) : Operation :=
  .updateCampaign (text "c1")
    { name := text "spring", senderID := text "s1", defaultLocale := [], tenantVars := {}, vars := {}
      scheduleAt := 0, version, resolve := fun _ => .ok ([], text "v1") }

/-- The edit reads the draft, the start runs to its end, the edit goes on up
to its write. -/
def editAcrossStart (version : Int) : List (Move Operation Err) :=
  [.spawn (renameUnder version), .advance 0 none,
    .spawn (.start 5000 (fun _ => text "e1") (text "c1") 0), .advance 1 none, .advance 1 none,
    .advance 1 none, .advance 1 none, .advance 1 none, .advance 0 none]

theorem draftStore_keyed : Keyed draftStore :=
  keyed_of_single rfl rfl

/-- An edit under the version of the draft it has read loses against the
start. -/
theorem status_kept_by_outdated_edit :
    ∃ pool next, (Pool.system program).run ⟨draftStore, []⟩ (editAcrossStart 1) = some pool ∧
      (Pool.system program).step pool (.advance 0 none) = some next ∧ MovesAlongEdges pool next (.advance 0 none) := by
  let labels := editAcrossStart 1 ++ [.advance 0 none]
  have guarded : (system program).Guarded
      (Permits fun tag failure _ => EditsWhatItRead tag failure) ⟨draftStore, []⟩ labels := by
    decide
  obtain ⟨next, completed⟩ := Option.isSome_iff_exists.mp
    (by decide : ((system program).run ⟨draftStore, []⟩ labels).isSome = true)
  obtain ⟨pool, ran, reached, permitted, stepped⟩ := System.last_step_of_run guarded completed
  exact ⟨pool, next, ran, stepped, status_moves_along_edges rfl draftStore_keyed reached permitted stepped⟩

/-- A client that guesses the version of the started campaign writes the draft
back over it. -/
theorem edit_returns_running_to_draft :
    ¬ ∀ (start pool next : Workers) (move : Move Operation Err), start.threads = [] →
        Keyed start.store → (Pool.system program).Reachable start pool →
        (Pool.system program).step pool move = some next → MovesAlongEdges pool next move := by
  intro claimed
  let status := fun pool : Workers => (pool.store.campaigns[text "c1"]?).map Campaign.status
  have started : ((system program).run ⟨draftStore, []⟩ (editAcrossStart 2)).map status =
      some (some .running) := by decide
  have edited : ((system program).run ⟨draftStore, []⟩
      (editAcrossStart 2 ++ [.advance 0 none])).map status = some (some .draft) := by decide
  obtain ⟨next, completed, isDraft⟩ := Option.map_eq_some_iff.mp edited
  obtain ⟨pool, ran, reached, _, stepped⟩ := System.last_step_of_run (System.guarded_true _) completed
  rw [ran] at started
  have moves := claimed ⟨draftStore, []⟩ pool next (.advance 0 none) rfl draftStore_keyed reached
    stepped (text "c1") .running .draft ⟨Option.some.inj started, isDraft, by decide⟩
  cases moves.1

end Sendplane.Control
