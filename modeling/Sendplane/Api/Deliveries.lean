import Sendplane.Api.Messages
import Sendplane.Control.Retry
import Sendplane.Sender.Running

namespace Sendplane.Api

open Data Store Memstore Prog DeliveryRepo TenantStore Table
open Control (Keyed)

inductive DeliveryCall where
  | getDelivery | requeue

abbrev DeliveryProc := Prog DeliveryCall TenantStore Err

def errConflict (message : Text) : Failure :=
  .api ⟨409, text "invalid_state", message⟩

def retryFilter (d : Delivery) (now : Time) : RetryFilter :=
  { campaignID := d.campaignID, deliveryIDs := some [d.id], now }

/-- Requeues a finished delivery, whatever the status of its campaign is. -/
def retryDelivery (now : Time) (deliveryID : Text) : DeliveryProc (Except Failure Delivery) := do
  match ← Prog.query .getDelivery (TenantStore.deliveryGet deliveryID) with
  | .error e => return .error (.store e)
  | .ok d =>
      if !d.status.terminal then
        return .error (errConflict (text "delivery " ++ d.id ++ text " is " ++ d.status.name ++
          text ": only a finished delivery can be retried"))
      else match ← Prog.invoke .requeue (TenantStore.deliveryRequeue (retryFilter d now) 1) with
        | .error e => return .error (.store e)
        | .ok 0 => return .error (errConflict (text "delivery " ++ d.id ++ text " could not be requeued"))
        | .ok _ =>
            match ← Prog.query .getDelivery (TenantStore.deliveryGet d.id) with
            | .error e => return .error (.store e)
            | .ok d => return .ok d

variable {s after : TenantStore} {now : Time} {id : Text} {d : Delivery} {trace : Prog.Trace DeliveryCall}

theorem requeue_one (now : Time) (stored : s.deliveries[id]? = some d) (own : d.id = id) :
    (s.requeue (retryFilter d now) 1).1 = 1 ∧
      (s.requeue (retryFilter d now) 1).2.deliveries[id]? = some (requeueRow (truncateTime now) d) := by
  have alone : Control.selected (retryFilter d now) s.toDeliveryRepo = [id] := by
    refine eq_of_pairwise_lt (keysWhere_pairwise _) (List.pairwise_singleton _ _) fun other => ?_
    rw [Control.mem_selected, List.mem_singleton]
    constructor
    · rintro ⟨row, -, matched⟩
      simp [requeues, retryFilter] at matched
      exact matched.1.1.2.trans own
    · rintro rfl
      refine ⟨d, stored, ?_⟩
      simp [requeues, retryFilter, own, matchStatus, matchClass, matchAny]
  constructor
  · have counted := Control.requeue_count (retryFilter d now) s.toDeliveryRepo (Nat.one_pos)
    rw [alone] at counted
    exact counted
  · have moved := Control.requeue_get (retryFilter d now) s.toDeliveryRepo (Nat.one_pos) id
    rw [alone, stored] at moved
    simpa [retryFilter] using moved

theorem retryDelivery_ends (rows : ∀ (id : Text) (d : Delivery), s.deliveries[id]? = some d → d.id = id)
    (ended : (retryDelivery now id).Ends fault s trace (.ok d) after) :
    ∃ old, s.deliveries[id]? = some old ∧ old.status.terminal = true ∧ d = requeueRow (truncateTime now) old ∧
      after.deliveries[id]? = some d ∧ after.campaigns = s.campaigns := by
  obtain ⟨_, ⟨_, ended⟩ | ⟨_, _, _, ended⟩⟩ := ends_query ended
  swap
  · exact absurd ended.2.1 (by simp)
  simp only [deliveryGet, DeliveryRepo.get] at ended
  cases stored : s.deliveries[id]? with
  | none =>
      simp only [stored] at ended
      exact absurd ended.2.1 (by simp)
  | some old =>
      simp only [stored] at ended
      by_cases finished : old.status.terminal = true
      swap
      · rw [if_pos (by simp [finished])] at ended
        exact absurd ended.2.1 (by simp)
      rw [if_neg (by simp [finished])] at ended
      obtain ⟨counted, moved⟩ := requeue_one now stored (rows id old stored)
      obtain ⟨_, ⟨_, ended⟩ | ⟨_, _, _, ended⟩⟩ := ends_invoke ended
      swap
      · exact absurd ended.2.1 (by simp)
      simp only [deliveryRequeue, counted] at ended
      obtain ⟨_, ⟨_, ended⟩ | ⟨_, _, _, ended⟩⟩ := ends_query ended
      swap
      · exact absurd ended.2.1 (by simp)
      simp only [deliveryGet, DeliveryRepo.get, rows id old stored, moved] at ended
      obtain ⟨_, answered, rfl⟩ := ended
      obtain rfl := Except.ok.inj answered
      exact ⟨old, rfl, finished, rfl, moved, rfl⟩

theorem le_truncateTime : time ≤ truncateTime (time + millisecond) := by
  have bound : ∀ time : Int, time ≤ if time + 1000000 = 0 then 0 else (time + 1000000) / 1000000 * 1000000 := by
    intro time
    split
    · omega
    · omega
  exact bound time

theorem mem_claimed_of (unlimited : req.limit ≤ 0) (stored : s.deliveries[id]? = some d)
    (eligible : claimable req d = true) : (id, d) ∈ s.claimed req := by
  rw [claimed, takeLimit_nonpos unlimited, List.mem_insertionSort, List.mem_filter]
  exact ⟨mem_toList.mpr stored, eligible⟩

/-- A sender that lists the running campaigns takes the row in a claim. -/
def SenderClaims (s : TenantStore) (id : Text) (d : Delivery) : Prop :=
  ∃ req refresh pages running, (Sender.runningCampaigns refresh req.now pages {}).exec s = (.ok running, s) ∧
    req.campaignIDs = some running.ids ∧ (id, d) ∈ s.claimed req

/-- The row is claimed now, or once its campaign has been resumed. -/
def Eligible (s : TenantStore) (id : Text) (d : Delivery) : Prop :=
  SenderClaims s id d ∨ ∃ now newID later,
    (Control.resumeCampaign now newID d.campaignID).exec s = (none, later) ∧ SenderClaims later id d

theorem runningCampaigns_exec (now : Time) :
    (Sender.runningCampaigns refresh now pages {}).exec s = (match ((Sender.runningFrom pages [] []).exec s).1 with
        | .error e => .error e
        | .ok ids => .ok ⟨ids, now⟩, ((Sender.runningFrom pages [] []).exec s).2) := by
  rw [Sender.runningCampaigns, if_neg (by simp), exec_bind]
  cases ((Sender.runningFrom pages [] []).exec s).1 <;> rfl

theorem senderClaims_iff (keyed : Keyed s) (stored : s.deliveries[id]? = some d) (queued : d.status = .queued) :
    SenderClaims s id d ↔ d.campaignID = [] ∨ ∃ c, s.campaigns[d.campaignID]? = some c ∧ c.status = .running := by
  constructor
  · rintro ⟨req, refresh, pages, running, listed, named, taken⟩
    obtain ⟨-, eligible⟩ := mem_claimed taken
    rw [runningCampaigns_exec] at listed
    cases loop : (Sender.runningFrom pages [] []).exec s with
    | mk reply store =>
        cases reply with
        | error e => simp [loop] at listed
        | ok ids =>
            simp only [loop, Prod.mk.injEq, Except.ok.injEq] at listed
            obtain ⟨rfl, rfl⟩ := listed
            have sound := (Sender.runningFrom_sound keyed loop).2
            simp only [claimable, named, Bool.and_eq_true, Bool.or_eq_true, decide_eq_true_eq, Option.all_some,
              List.contains_iff_mem] at eligible
            rcases eligible.2 with none | member
            · exact .inl none
            · simpa using Or.inr (sound _ member)
  · intro running
    obtain ⟨pages, ids, listed, complete⟩ := Sender.runningFrom_complete
    have due : d.nextAttemptAt ≤ truncateTime (d.nextAttemptAt + millisecond) := le_truncateTime
    refine ⟨⟨d.lane, some ids, 0, 0, [], d.nextAttemptAt + millisecond⟩, 0, pages, ⟨ids, d.nextAttemptAt + millisecond⟩,
      ?_, rfl, ?_⟩
    · rw [runningCampaigns_exec, listed]
    · refine mem_claimed_of (Int.le_refl 0) stored ?_
      simp only [claimable, claimableStatus, queued, due, Bool.and_eq_true, Bool.or_eq_true, decide_eq_true_eq,
        Option.all_some, List.contains_iff_mem, true_and]
      by_cases campaignless : d.campaignID = []
      · exact .inl campaignless
      · obtain ⟨c, held, runs⟩ := running.resolve_left campaignless
        have member := complete _ c campaignless held runs
        rw [keyed _ c held] at member
        exact .inr member

theorem resume_paused (resumed : (Control.resumeCampaign now newID cid).exec s = (none, after)) :
    ∃ c, s.campaigns[cid]? = some c ∧ c.status = .paused := by
  cases stored : s.campaigns[cid]? with
  | none => simp [Control.resumeCampaign, Control.getCampaign, campaignGet, find, stored] at resumed
  | some c =>
      refine ⟨c, rfl, ?_⟩
      by_contra other
      simp [Control.resumeCampaign, Control.getCampaign, campaignGet, find, stored, other] at resumed

theorem resume_runs (keyed : Keyed s) (stored : s.campaigns[cid]? = some c) (paused : c.status = .paused)
    (now : Time) (newID : Nat → Text) :
    ∃ later, (Control.resumeCampaign now newID cid).exec s = (none, later) ∧ later.deliveries = s.deliveries ∧
      Keyed later ∧ ∃ c, later.campaigns[cid]? = some c ∧ c.status = .running := by
  have same : c.id = cid := keyed cid c stored
  let written : Campaign := { c with status := .running, startedAt := if c.startedAt = 0 then now else c.startedAt }
  have held : s.campaigns[written.id]? = some c := by
    rw [← stored, ← same]
  have updated := campaignUpdate_ok held rfl
  have found : campaignGet cid s = .ok c := by
    rw [campaignGet, find, stored]
  have ran : (Control.resumeCampaign now newID cid).exec s = (none, (outboxEnqueue newID
      [Control.campaignEvent (updatedRow campaignMeta s.tenant s.now c written) Control.eventCampaignStarted now none]
      { s with campaigns := s.campaigns.insert written.id (s.updatedCampaign c written) }).2) := by
    simp only [Control.resumeCampaign, Control.getCampaign, query_bind, exec_call, found, paused, ne_eq,
      not_true_eq_false, ↓reduceIte, Control.writeTransition, Control.updateCampaign, invoke_bind]
    rw [updated]
    rfl
  refine ⟨_, ran, rfl, ?_, s.updatedCampaign c written, ?_, rfl⟩
  · intro other row held
    change (s.campaigns.insert written.id (s.updatedCampaign c written))[other]? = some row at held
    rw [get_insert] at held
    split at held
    case isTrue here =>
      cases held
      exact here
    case isFalse elsewhere => exact keyed other row held
  · rw [← same]
    exact get_insert_same _ _ _

theorem eligible_iff (keyed : Keyed s) (stored : s.deliveries[id]? = some d) (queued : d.status = .queued) :
    Eligible s id d ↔ d.campaignID = [] ∨
      ∃ c, s.campaigns[d.campaignID]? = some c ∧ (c.status = .running ∨ c.status = .paused) := by
  rw [Eligible, senderClaims_iff keyed stored queued]
  constructor
  · rintro ((none | ⟨c, held, running⟩) | ⟨_, _, _, resumed, _⟩)
    · exact .inl none
    · exact .inr ⟨c, held, .inl running⟩
    · obtain ⟨c, held, paused⟩ := resume_paused resumed
      exact .inr ⟨c, held, .inr paused⟩
  · rintro (none | ⟨c, held, running | paused⟩)
    · exact .inl (.inl none)
    · exact .inl (.inr ⟨c, held, running⟩)
    · obtain ⟨later, resumed, deliveries, keyedLater, runs⟩ := resume_runs keyed held paused 0 fun _ => []
      rw [← deliveries] at stored
      exact .inr ⟨0, fun _ => [], later, resumed, (senderClaims_iff keyedLater stored queued).mpr (.inr runs)⟩

/-- The delivery that a retry has queued is claimed exactly if it belongs to no
campaign or to one that is running or paused. -/
theorem retryDelivery_eligible_iff (keyed : Keyed s)
    (rows : ∀ (id : Text) (d : Delivery), s.deliveries[id]? = some d → d.id = id) {fault : DeliveryCall → Err → Prop}
    (retried : (retryDelivery now id).Ends fault s trace (.ok d) after) :
    d.status = .queued ∧ after.deliveries[id]? = some d ∧ (Eligible after id d ↔ d.campaignID = [] ∨
        ∃ c, s.campaigns[d.campaignID]? = some c ∧ (c.status = .running ∨ c.status = .paused)) := by
  obtain ⟨old, -, -, requeued, stored, campaigns⟩ := retryDelivery_ends rows retried
  have queued : d.status = .queued := by
    rw [requeued]
    rfl
  have keyedAfter : Keyed after := by
    unfold Keyed
    rw [campaigns]
    exact keyed
  refine ⟨queued, stored, ?_⟩
  rw [eligible_iff keyedAfter stored queued, campaigns]

def failedDelivery (status : CampaignStatus) : TenantStore :=
  { deliveries := (∅ : Table Text Delivery).insert (text "d1")
      { id := text "d1", campaignID := text "c1", status := .failed }
    campaigns := (∅ : Table Text Campaign).insert (text "c1") { id := text "c1", status } }

def retriedDelivery : Delivery :=
  { id := text "d1", campaignID := text "c1", status := .queued, retryGen := 1, nextAttemptAt := 1000000,
    updatedAt := 1000000 }

theorem failedDelivery_keyed : Keyed (failedDelivery status) :=
  Control.keyed_of_single rfl rfl

theorem failedDelivery_rows (id : Text) (d : Delivery) (stored : (failedDelivery status).deliveries[id]? = some d) :
    d.id = id := by
  obtain ⟨rfl, rfl⟩ := eq_of_get_single stored
  rfl

theorem retried_while_paused :
    ∃ after, (retryDelivery 1000000 (text "d1")).exec (failedDelivery .paused) = (.ok retriedDelivery, after) ∧
      Eligible after (text "d1") retriedDelivery := by
  have ran : ((retryDelivery 1000000 (text "d1")).exec (failedDelivery .paused)).1 = .ok retriedDelivery := by
    decide +kernel
  obtain ⟨trace, -, ended⟩ := ends_exec (fun _ _ => False) (retryDelivery 1000000 (text "d1")) (failedDelivery .paused)
  refine ⟨_, Prod.ext ran rfl, ?_⟩
  have claimed := (retryDelivery_eligible_iff failedDelivery_keyed failedDelivery_rows ended).2.2
  exact claimed.mpr (.inr ⟨{ id := text "c1", status := .paused }, get_insert_same _ _ _, .inr rfl⟩)

/-- The retry of a delivery of a completed campaign is answered with success,
and nobody claims the row. -/
theorem retried_when_completed :
    ∃ after, (retryDelivery 1000000 (text "d1")).exec (failedDelivery .completed) = (.ok retriedDelivery, after) ∧
      (after.campaigns[text "c1"]?.map Campaign.status) = some .completed ∧
      ¬ Eligible after (text "d1") retriedDelivery := by
  have ran : ((retryDelivery 1000000 (text "d1")).exec (failedDelivery .completed)).1 = .ok retriedDelivery := by
    decide +kernel
  obtain ⟨trace, -, ended⟩ :=
    ends_exec (fun _ _ => False) (retryDelivery 1000000 (text "d1")) (failedDelivery .completed)
  rw [ran] at ended
  obtain ⟨_, -, -, -, stored, campaigns⟩ := retryDelivery_ends failedDelivery_rows ended
  have keyed := Control.keyed_of_single campaigns rfl
  refine ⟨((retryDelivery 1000000 (text "d1")).exec (failedDelivery .completed)).2, Prod.ext ran rfl, ?_, ?_⟩
  · rfl
  · rw [eligible_iff keyed stored rfl]
    rintro (none | ⟨c, held, status⟩)
    · exact absurd none (by decide)
    · obtain rfl : _ = c := Option.some.inj ((get_insert_same _ _ _).symm.trans held)
      exact absurd status (by decide)

end Sendplane.Api
