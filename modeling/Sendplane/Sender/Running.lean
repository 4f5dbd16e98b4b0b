import Sendplane.Control.Operations
import Sendplane.Memstore.Listing

namespace Sendplane.Sender

open Data Store Memstore Prog

/-- The list of running campaigns, kept for a short time. -/
structure RunningSet where
  ids : List Text := []
  loadedAt : Time := 0

/-- The loop over the pages.  It has no bound of its own; the argument is how
many pages it gets to. -/
def runningFrom : Nat → Text → List Text → Control.Proc (Except Err (List Text))
  | 0, _, ids => return .ok ids
  | pages + 1, cursor, ids => do
      match ← Prog.query ⟨.sender, .read⟩
          (TenantStore.campaignListByStatus [.running] { limit := maxPageLimit, cursor }) with
      | .error e => return .error e
      | .ok res =>
          let ids := ids ++ res.items.map Campaign.id
          if res.nextCursor = [] then return .ok ids else runningFrom pages res.nextCursor ids

def runningCampaigns (refresh : Duration) (now : Time) (pages : Nat) (cached : RunningSet) :
    Control.Proc (Except Err RunningSet) := do
  if cached.loadedAt ≠ 0 ∧ now - cached.loadedAt < refresh then return .ok cached
  else match ← runningFrom pages [] [] with
    | .error e => return .error e
    | .ok ids => return .ok ⟨ids, now⟩

variable {s : TenantStore}

def RunningPage (s : TenantStore) (cursor : Text) (items : List Campaign) (next : Text) : Prop :=
  TenantStore.campaignListByStatus [.running] { limit := maxPageLimit, cursor } s = .ok ⟨items, next⟩

theorem runningFrom_drains (drains : Drains (RunningPage s) [] cursor rows) :
    ∃ pages, ∀ ids, (runningFrom pages cursor ids).exec s = (.ok (ids ++ rows.map Campaign.id), s) := by
  induction drains with
  | last listed =>
      refine ⟨1, fun ids => ?_⟩
      rw [runningFrom, query_bind, exec_call, listed]
      rfl
  | more listed open_ _ ih =>
      obtain ⟨pages, lists⟩ := ih
      refine ⟨pages + 1, fun ids => ?_⟩
      rw [runningFrom, query_bind, exec_call, listed]
      simp [open_, lists]

theorem runningFrom_complete : ∃ pages ids, (runningFrom pages [] []).exec s = (.ok ids, s) ∧
      ∀ (id : Text) (c : Campaign), id ≠ [] → s.campaigns[id]? = some c → c.status = .running → c.id ∈ ids := by
  have drains : Drains (RunningPage s) [] [] _ := (paginate_drains s.campaigns maxPageLimit
    (fun c => [CampaignStatus.running].contains c.status) []).mono fun listed => congrArg Except.ok listed
  obtain ⟨pages, lists⟩ := runningFrom_drains drains
  refine ⟨pages, _, lists [], ?_⟩
  intro id c named stored running
  rw [List.nil_append, List.mem_map]
  refine ⟨c, List.mem_map.mpr ⟨(id, c), ?_, rfl⟩, rfl⟩
  rw [Table.after, List.mem_filter]
  refine ⟨Table.mem_toList.mpr stored, ?_⟩
  rw [compare_nil named, running]
  rfl

theorem runningFrom_sound (keyed : Control.Keyed s)
    (ended : (runningFrom pages cursor ids).exec s = (.ok listed, after)) :
    after = s ∧ ∀ id ∈ listed, id ∈ ids ∨ ∃ c, s.campaigns[id]? = some c ∧ c.status = .running := by
  induction pages generalizing cursor ids with
  | zero =>
      obtain ⟨rfl, rfl⟩ := ended
      exact ⟨rfl, fun id member => .inl member⟩
  | succ pages ih =>
      simp only [runningFrom, query_bind, exec_call, TenantStore.campaignListByStatus] at ended
      have running : ∀ c ∈ (paginate s.campaigns { limit := maxPageLimit, cursor }
          (fun c => [CampaignStatus.running].contains c.status)).items,
          s.campaigns[c.id]? = some c ∧ c.status = .running := by
        intro c member
        obtain ⟨kept, id, stored⟩ := mem_paginate member
        rw [keyed id c stored]
        exact ⟨stored, by simpa using kept⟩
      have named : ∀ id ∈ ids ++ (paginate s.campaigns { limit := maxPageLimit, cursor }
          (fun c => [CampaignStatus.running].contains c.status)).items.map Campaign.id,
          id ∈ ids ∨ ∃ c, s.campaigns[id]? = some c ∧ c.status = .running := by
        intro id member
        rcases List.mem_append.mp member with earlier | new
        · exact .inl earlier
        · obtain ⟨c, shown, rfl⟩ := List.mem_map.mp new
          exact .inr ⟨c, running c shown⟩
      split at ended
      · simp only [pure_eq, exec_done, Prod.mk.injEq, Except.ok.injEq] at ended
        obtain ⟨rfl, rfl⟩ := ended
        exact ⟨rfl, named⟩
      · obtain ⟨same, later⟩ := ih ended
        refine ⟨same, fun id member => ?_⟩
        rcases later id member with earlier | found
        · exact named id earlier
        · exact .inr found

end Sendplane.Sender
