import Sendplane.Control.Campaign

namespace Sendplane.Control

open Data Store Memstore Prog Table List

variable {repo : DeliveryRepo} {f : RetryFilter}

def selected (f : RetryFilter) (repo : DeliveryRepo) : List Text :=
  repo.deliveries.keysWhere (requeues f)

theorem selected_nodup : (selected f repo).Nodup :=
  keysWhere_nodup _ _

theorem mem_selected {id : Text} : id ∈ selected f repo ↔ ∃ d, repo.deliveries[id]? = some d ∧ requeues f id d = true :=
  mem_keysWhere

variable {ids : List Text}

theorem selected_ext (sublist : ids.Sublist (selected f repo)) (same : ∀ id, id ∈ selected f other ↔ id ∈ ids) :
    selected f other = ids :=
  eq_of_pairwise_lt (keysWhere_pairwise _)
    ((keysWhere_pairwise _).sublist sublist) same

variable {chunk : Nat}

theorem requeue_count (f : RetryFilter) (repo : DeliveryRepo) (positive : 0 < chunk) :
    (repo.requeue f chunk).1 = min chunk (selected f repo).length := by
  have ids : (repo.requeue f chunk).1 = (takeLimit (chunk : Int) (selected f repo)).length := rfl
  rw [ids, takeLimit_pos chunk positive, length_take]

theorem requeue_get (f : RetryFilter) (repo : DeliveryRepo) (positive : 0 < chunk) (id : Text) :
    (repo.requeue f chunk).2.deliveries[id]? = if id ∈ (selected f repo).take chunk then
        repo.deliveries[id]?.map (requeueRow (truncateTime f.now)) else repo.deliveries[id]? := by
  have chosen : repo.chosen (requeues f) chunk = (selected f repo).take chunk := takeLimit_pos chunk positive
  rw [← chosen]
  exact DeliveryRepo.changeWhere_get _

variable {d : Delivery}

theorem requeues_requeueRow {id : Text} (was : requeues f id d = true) :
    requeues f id (requeueRow time d) = matchStatus f.statuses .queued := by
  simp only [requeues, Bool.and_eq_true] at was
  obtain ⟨⟨⟨campaign, ids⟩, _⟩, errorClass⟩ := was
  change (decide (d.campaignID = f.campaignID) && f.deliveryIDs.all (·.contains id) &&
    matchStatus f.statuses .queued && matchClass f.errorClasses d.lastErrorClass) = _
  rw [campaign, ids, errorClass]
  simp

theorem selected_requeue (positive : 0 < chunk) : selected f (repo.requeue f chunk).2 =
      if matchStatus f.statuses .queued then selected f repo else (selected f repo).drop chunk := by
  have distinct : ((selected f repo).take chunk ++ (selected f repo).drop chunk).Nodup := by
    rw [take_append_drop]
    exact selected_nodup
  have split : ∀ id, id ∈ selected f repo ↔ id ∈ (selected f repo).take chunk ∨ id ∈ (selected f repo).drop chunk := by
    intro id
    rw [← mem_append, take_append_drop]
  have after : ∀ id, id ∈ selected f (repo.requeue f chunk).2 ↔
      (id ∈ (selected f repo).take chunk ∧ matchStatus f.statuses .queued = true) ∨
        id ∈ (selected f repo).drop chunk := by
    intro id
    rw [mem_selected, requeue_get f repo positive]
    by_cases taken : id ∈ (selected f repo).take chunk
    · obtain ⟨d, stored, matched⟩ := mem_selected.mp ((split id).mpr (.inl taken))
      have left : id ∉ (selected f repo).drop chunk := fun right =>
        disjoint_of_nodup_append distinct taken right
      simp [taken, left, stored, requeues_requeueRow matched]
    · rw [if_neg taken, ← mem_selected, split id]
      simp [taken]
  split
  next again =>
    apply selected_ext (Sublist.refl _)
    intro id
    rw [after, split, again]
    simp
  next done =>
    apply selected_ext (drop_sublist _ _)
    intro id
    rw [after]
    simp [done]

/-- The rows `ids` are requeued once, and nothing else changes. -/
def RequeuedOnce (f : RetryFilter) (ids : List Text) (before after : DeliveryRepo) : Prop :=
  ∀ id : Text, after.deliveries[id]? = if id ∈ ids then before.deliveries[id]?.map (requeueRow (truncateTime f.now))
    else before.deliveries[id]?

theorem requeue_once (f : RetryFilter) (repo : DeliveryRepo) (positive : 0 < chunk) :
    RequeuedOnce f ((selected f repo).take chunk) repo (repo.requeue f chunk).2 :=
  fun id => requeue_get f repo positive id

variable {before after : DeliveryRepo}

theorem RequeuedOnce.trans (disjoint : first.Disjoint second) (start : RequeuedOnce f first before middle)
    (rest : RequeuedOnce f second middle after) : RequeuedOnce f (first ++ second) before after := by
  intro id
  rw [rest id, start id]
  by_cases inFirst : id ∈ first
  · have notSecond : id ∉ second := fun inSecond => disjoint inFirst inSecond
    simp [notSecond]
  · simp [inFirst]

theorem requeueChunks_exec : (requeueChunks f chunk (passes + 1) total).exec s =
      let moved := (s.requeue f chunk).1
      let next := { s with toDeliveryRepo := (s.requeue f chunk).2 }
      if moved < chunk then ((total + moved, none), next)
      else (requeueChunks f chunk passes (total + moved)).exec next := by
  simp only [requeueChunks, ctxErr, query_bind, invoke_bind, exec_call, TenantStore.deliveryRequeue]
  split <;> rfl

theorem requeueChunks_short (passes total : Nat)
    (short : (selected f s.toDeliveryRepo).length < chunk) :
    let out := (requeueChunks f chunk (passes + 1) total).exec s
    out.1 = (total + (selected f s.toDeliveryRepo).length, none) ∧ out.2.campaigns = s.campaigns ∧
      RequeuedOnce f (selected f s.toDeliveryRepo) s.toDeliveryRepo out.2.toDeliveryRepo := by
  have positive : 0 < chunk := by omega
  have moved : (s.requeue f chunk).1 = (selected f s.toDeliveryRepo).length := by
    rw [requeue_count f _ positive]
    omega
  have once := requeue_once f s.toDeliveryRepo positive
  rw [take_of_length_le (by omega)] at once
  rw [requeueChunks_exec]
  simpa [moved, short] using once

theorem requeueChunks_progress (positive : 0 < chunk)
    (unqueued : matchStatus f.statuses .queued = false) (passes total : Nat) (s : TenantStore) :
    let out := (requeueChunks f chunk passes total).exec s
    let ids := (selected f s.toDeliveryRepo).take (passes * chunk)
    out.1 = (total + ids.length, none) ∧ out.2.campaigns = s.campaigns ∧
      RequeuedOnce f ids s.toDeliveryRepo out.2.toDeliveryRepo := by
  induction passes generalizing total s with
  | zero =>
      refine ⟨by simp [requeueChunks], rfl, fun id => ?_⟩
      simp [requeueChunks]
  | succ passes ih =>
      by_cases short : (selected f s.toDeliveryRepo).length < chunk
      · have all : (selected f s.toDeliveryRepo).take ((passes + 1) * chunk) = selected f s.toDeliveryRepo := by
          apply take_of_length_le
          rw [Nat.add_mul]
          omega
        rw [all]
        exact requeueChunks_short passes total short
      · have moved : (s.requeue f chunk).1 = chunk := by
          rw [requeue_count f _ positive]
          omega
        let next := { s with toDeliveryRepo := (s.requeue f chunk).2 }
        have remaining : selected f next.toDeliveryRepo = (selected f s.toDeliveryRepo).drop chunk := by
          rw [selected_requeue positive, unqueued]
          rfl
        obtain ⟨reply, campaigns, rest⟩ := ih (total + chunk) next
        rw [remaining] at reply rest
        have ids : (selected f s.toDeliveryRepo).take ((passes + 1) * chunk) = (selected f s.toDeliveryRepo).take chunk ++
              ((selected f s.toDeliveryRepo).drop chunk).take (passes * chunk) := by
          rw [← take_add, Nat.add_mul, Nat.one_mul, Nat.add_comm]
        have distinct : ((selected f s.toDeliveryRepo).take chunk ++
            ((selected f s.toDeliveryRepo).drop chunk).take (passes * chunk)).Nodup := by
          rw [← ids]
          exact selected_nodup.sublist (take_sublist _ _)
        rw [requeueChunks_exec]
        simp only [moved, lt_irrefl, ↓reduceIte]
        refine ⟨?_, campaigns, ?_⟩
        · have taken : ((selected f s.toDeliveryRepo).take chunk).length = chunk := length_take_of_le (by omega)
          rw [reply, ids, length_append, taken, Nat.add_assoc]
        · rw [ids]
          exact RequeuedOnce.trans (disjoint_of_nodup_append distinct)
            (requeue_once f s.toDeliveryRepo positive) rest

/-- A filter that names queued and a full first chunk: every pass takes the
same deliveries again. -/
theorem requeueChunks_repeats (positive : 0 < chunk) (queued : matchStatus f.statuses .queued = true)
    (passes total : Nat) (s : TenantStore) {id : Text} (full : chunk ≤ (selected f s.toDeliveryRepo).length)
    (first : id ∈ (selected f s.toDeliveryRepo).take chunk) (stored : s.deliveries[id]? = some d) :
    ∃ after, ((requeueChunks f chunk passes total).exec s).2.deliveries[id]? = some after ∧
      after.retryGen = d.retryGen + passes := by
  induction passes generalizing total s d with
  | zero => exact ⟨d, stored, by simp⟩
  | succ passes ih =>
      have moved : (s.requeue f chunk).1 = chunk := by
        rw [requeue_count f _ positive]
        omega
      let next := { s with toDeliveryRepo := (s.requeue f chunk).2 }
      have same : selected f next.toDeliveryRepo = selected f s.toDeliveryRepo := by
        rw [selected_requeue positive, queued]
        rfl
      have bumped : next.deliveries[id]? = some (requeueRow (truncateTime f.now) d) := by
        rw [requeue_get f s.toDeliveryRepo positive, if_pos first, stored]
        rfl
      obtain ⟨after, found, generation⟩ := ih (total + chunk) next
        (by rw [same]; exact full) (by rw [same]; exact first) bumped
      rw [requeueChunks_exec]
      simp only [moved, lt_irrefl]
      refine ⟨after, found, ?_⟩
      have step : (requeueRow (truncateTime f.now) d).retryGen = d.retryGen + 1 := rfl
      push_cast
      omega

theorem writeTransition_exec_repo : ((writeTransition caller newID seen written event now).exec s).2.toDeliveryRepo =
      s.toDeliveryRepo := by
  simp only [writeTransition, updateCampaign, invoke_bind, exec_call]
  cases reply : (s.campaignUpdate written).1 with
  | error e => rfl
  | ok cam =>
      cases event with
      | none | some => rfl

/-- The campaign exists in a status that can be retried, and the request does
not name an empty list of deliveries. -/
def Retries (id : Text) (filter : RetryFilter) (s : TenantStore) : Prop :=
  ∃ cam, s.campaigns[id]? = some cam ∧ retryable cam.status = true ∧ filter.deliveryIDs ≠ some []

theorem finishRetry_exec (outcome : Nat × Option Err) : ((finishRetry now newID cam outcome).exec s).1.1 = outcome.1 ∧
      ((finishRetry now newID cam outcome).exec s).2.toDeliveryRepo = s.toDeliveryRepo := by
  obtain ⟨total, failure⟩ := outcome
  cases failure with
  | some e => exact ⟨rfl, rfl⟩
  | none =>
      by_cases ends : total = 0 ∨ cam.status ≠ .completed
      · simp only [finishRetry, ends]
        exact ⟨rfl, rfl⟩
      · simp only [finishRetry, ends, ↓reduceIte, exec_bind]
        exact ⟨rfl, writeTransition_exec_repo⟩

variable {chunk : Nat} {id : Text} {filter : RetryFilter} {s : TenantStore}

theorem retryCampaign_idle (refused : ¬ Retries id filter s) :
    ((retryCampaign now chunk newID id filter).exec s).1.1 = 0 ∧
      ((retryCampaign now chunk newID id filter).exec s).2 = s := by
  simp only [retryCampaign, getCampaign, query_bind, exec_call, TenantStore.campaignGet, find]
  cases stored : s.campaigns[id]? with
  | none => exact ⟨rfl, rfl⟩
  | some cam =>
      cases status : retryable cam.status with
      | false => simp [status]
      | true =>
          by_cases empty : filter.deliveryIDs = some []
          · simp [status, empty]
          · exact absurd ⟨cam, stored, status, empty⟩ refused

theorem retryCampaign_loop (now : Time) (chunk : Nat) (newID : Nat → Text) (retries : Retries id filter s) :
    let loop := (requeueChunks (effectiveFilter now id filter) chunk maxRetryChunks 0).exec s
    ((retryCampaign now chunk newID id filter).exec s).1.1 = loop.1.1 ∧
      ((retryCampaign now chunk newID id filter).exec s).2.toDeliveryRepo = loop.2.toDeliveryRepo := by
  obtain ⟨cam, stored, status, named⟩ := retries
  simp only [retryCampaign, getCampaign, query_bind, exec_call, TenantStore.campaignGet,
    find, stored, status, named, ↓reduceIte, Bool.true_eq_false, exec_bind]
  exact finishRetry_exec _

/-- A sender is working on the delivery. -/
def HeldBySender (now : Time) (d : Delivery) : Prop :=
  d.status = .leased ∧ now < d.leaseUntil

def movedRows (before after : DeliveryRepo) : List Text :=
  after.deliveries.keysWhere fun id d => before.deliveries[id]? ≠ some d

/-- What a retry owes its caller: no retry generation grows by more than one,
the answer is the number of deliveries that moved, and a delivery a sender is
working on stays as it is. -/
structure RetryContract (now : Time) (chunk : Nat) (newID : Nat → Text) (id : Text)
    (filter : RetryFilter) (s : TenantStore) : Prop where
  once : ∀ (delivery : Text) (d : Delivery), s.deliveries[delivery]? = some d →
    ∃ after, ((retryCampaign now chunk newID id filter).exec s).2.deliveries[delivery]? = some after ∧
      after.retryGen ≤ d.retryGen + 1
  counts : ((retryCampaign now chunk newID id filter).exec s).1.1 = (movedRows s.toDeliveryRepo
      ((retryCampaign now chunk newID id filter).exec s).2.toDeliveryRepo).length
  spares : ∀ (delivery : Text) (d : Delivery), s.deliveries[delivery]? = some d → HeldBySender now d →
    ((retryCampaign now chunk newID id filter).exec s).2.deliveries[delivery]? = some d

theorem matchStatus_effective (id : Text) (filter : RetryFilter) :
    matchStatus (effectiveFilter now id filter).statuses .queued = true ↔
      DeliveryStatus.queued ∈ filter.statuses := by
  simp only [effectiveFilter, matchStatus, matchAny]
  cases statuses : filter.statuses with
  | nil => decide
  | cons status rest => simp

theorem movedRows_once (distinct : ids.Nodup) (present : ∀ id ∈ ids, ∃ d, before.deliveries[id]? = some d)
    (moved : RequeuedOnce f ids before after) : (movedRows before after).length = ids.length := by
  refine Perm.length_eq ((perm_ext_iff_of_nodup (keysWhere_nodup _ _)
    distinct).mpr fun id => ?_)
  rw [mem_keysWhere, moved id]
  by_cases listed : id ∈ ids
  · obtain ⟨d, stored⟩ := present id listed
    have changed : d ≠ requeueRow (truncateTime f.now) d := by
      intro same
      have generation : d.retryGen = d.retryGen + 1 := congrArg Delivery.retryGen same
      omega
    simp [listed, stored, changed]
  · simp [listed]

theorem requeueChunks_once (positive : 0 < chunk)
    (progress : DeliveryStatus.queued ∉ filter.statuses ∨
      (selected (effectiveFilter now id filter) s.toDeliveryRepo).length < chunk) :
    let loop := (requeueChunks (effectiveFilter now id filter) chunk maxRetryChunks 0).exec s
    let ids := (selected (effectiveFilter now id filter) s.toDeliveryRepo).take (maxRetryChunks * chunk)
    loop.1.1 = ids.length ∧
      RequeuedOnce (effectiveFilter now id filter) ids s.toDeliveryRepo loop.2.toDeliveryRepo := by
  by_cases short : (selected (effectiveFilter now id filter) s.toDeliveryRepo).length < chunk
  · have all : (selected (effectiveFilter now id filter) s.toDeliveryRepo).take (maxRetryChunks * chunk) =
        selected (effectiveFilter now id filter) s.toDeliveryRepo := by
      apply take_of_length_le
      unfold maxRetryChunks
      omega
    have passes : maxRetryChunks = 999 + 1 := rfl
    obtain ⟨reply, _, once⟩ := requeueChunks_short 999 0 short
    rw [all, passes]
    exact ⟨by rw [reply, Nat.zero_add], once⟩
  · have unqueued : matchStatus (effectiveFilter now id filter).statuses .queued = false := by
      rw [Bool.eq_false_iff, ne_eq, matchStatus_effective]
      exact progress.resolve_right short
    obtain ⟨reply, _, once⟩ := requeueChunks_progress positive
      unqueued maxRetryChunks 0 s
    exact ⟨by rw [reply, Nat.zero_add], once⟩

theorem requeueChunks_overshoots (positive : 0 < chunk) (queued : DeliveryStatus.queued ∈ filter.statuses)
    (full : chunk ≤ (selected (effectiveFilter now id filter) s.toDeliveryRepo).length) :
    ∃ (delivery : Text) (d after : Delivery), s.deliveries[delivery]? = some d ∧
      ((requeueChunks (effectiveFilter now id filter) chunk maxRetryChunks 0).exec s).2.deliveries[delivery]? =
        some after ∧ after.retryGen = d.retryGen + maxRetryChunks := by
  have first : (selected (effectiveFilter now id filter) s.toDeliveryRepo)[0] ∈
      (selected (effectiveFilter now id filter) s.toDeliveryRepo).take chunk := by
    rw [mem_take_iff_getElem]
    exact ⟨0, by omega, rfl⟩
  obtain ⟨d, stored, _⟩ := mem_selected.mp (mem_of_mem_take first)
  obtain ⟨after, found, generation⟩ := requeueChunks_repeats
    positive ((matchStatus_effective id filter).mpr queued) maxRetryChunks 0 s full first stored
  exact ⟨_, d, after, stored, found, generation⟩

theorem retryContract_idle (retries : ¬ Retries id filter s) : RetryContract now chunk newID id filter s := by
  obtain ⟨answer, unchanged⟩ := retryCampaign_idle retries
  constructor
  · intro delivery d stored
    rw [unchanged]
    exact ⟨d, stored, by omega⟩
  · rw [answer, unchanged]
    symm
    rw [length_eq_zero_iff, eq_nil_iff_forall_not_mem]
    intro delivery moved
    obtain ⟨d, stored, changed⟩ := mem_keysWhere.mp moved
    simp [stored] at changed
  · intro delivery d stored _
    rw [unchanged]
    exact stored

variable {now : Time} {newID : Nat → Text}

theorem progress_of_contract (positive : 0 < chunk) (retries : Retries id filter s)
    (contract : RetryContract now chunk newID id filter s) :
    DeliveryStatus.queued ∉ filter.statuses ∨
      (selected (effectiveFilter now id filter) s.toDeliveryRepo).length < chunk := by
  obtain ⟨_, rows⟩ := retryCampaign_loop now chunk newID retries
  by_contra repeats
  push Not at repeats
  obtain ⟨delivery, d, after, stored, found, generation⟩ := requeueChunks_overshoots positive repeats.1 repeats.2
  obtain ⟨other, kept, bounded⟩ := contract.once delivery d stored
  rw [rows, found] at kept
  cases kept
  have passes : (maxRetryChunks : Int) = 1000 := rfl
  omega

theorem retryContract_of_progress (positive : 0 < chunk) (retries : Retries id filter s)
    (progress : DeliveryStatus.queued ∉ filter.statuses ∨
      (selected (effectiveFilter now id filter) s.toDeliveryRepo).length < chunk)
    (unheld : ∀ delivery ∈ (selected (effectiveFilter now id filter) s.toDeliveryRepo).take (maxRetryChunks * chunk),
      ∀ d, s.deliveries[delivery]? = some d → ¬ HeldBySender now d) : RetryContract now chunk newID id filter s := by
  obtain ⟨answer, rows⟩ := retryCampaign_loop now chunk newID retries
  obtain ⟨total, once⟩ := requeueChunks_once positive progress
  constructor
  · intro delivery d stored
    rw [rows, once delivery, stored]
    split
    · exact ⟨_, rfl, Int.le_refl _⟩
    · exact ⟨d, rfl, by omega⟩
  · rw [answer, total, rows]
    refine (movedRows_once (selected_nodup.sublist (take_sublist _ _)) (fun delivery listed => ?_) once).symm
    obtain ⟨d, stored, _⟩ := mem_selected.mp (mem_of_mem_take listed)
    exact ⟨d, stored⟩
  · intro delivery d stored held
    rw [rows, once delivery, if_neg, stored]
    exact fun listed => unheld delivery listed d stored held

/-- RetryCampaign keeps its contract exactly if the filter does not make it
requeue the same chunk over and over, and selects no delivery that a sender is
working on. -/
theorem retryCampaign_contract_iff (now : Time) (newID : Nat → Text) (id : Text)
    (filter : RetryFilter) (s : TenantStore) (positive : 0 < chunk) :
    RetryContract now chunk newID id filter s ↔ (Retries id filter s → (DeliveryStatus.queued ∉ filter.statuses ∨
          (selected (effectiveFilter now id filter) s.toDeliveryRepo).length < chunk) ∧
        ∀ delivery ∈ (selected (effectiveFilter now id filter) s.toDeliveryRepo).take (maxRetryChunks * chunk),
          ∀ d, s.deliveries[delivery]? = some d → ¬ HeldBySender now d) := by
  constructor
  · intro contract retries
    have progress := progress_of_contract positive retries contract
    refine ⟨progress, fun delivery listed d stored held => ?_⟩
    obtain ⟨_, rows⟩ := retryCampaign_loop now chunk newID retries
    obtain ⟨_, once⟩ := requeueChunks_once positive progress
    have spared := contract.spares delivery d stored held
    rw [rows, once delivery, if_pos listed, stored, Option.map_some, Option.some.injEq] at spared
    have generation : d.retryGen + 1 = d.retryGen := congrArg Delivery.retryGen spared
    omega
  · intro condition
    by_cases retries : Retries id filter s
    · obtain ⟨progress, unheld⟩ := condition retries
      exact retryContract_of_progress positive retries progress unheld
    · exact retryContract_idle retries

/-- A running campaign with one delivery. -/
def retryStore (d : Delivery) : TenantStore :=
  { campaigns := (∅ : Table Text Campaign).insert (text "c1") { id := text "c1", status := .running }
    deliveries := (∅ : Table Text Delivery).insert (text "d1") { d with id := text "d1", campaignID := text "c1" } }

def failedDelivery : Delivery := { status := .failed, lastErrorClass := .permanent }

theorem retryCampaign_contract_failed :
    RetryContract 2000000 10 (fun _ => []) (text "c1") { statuses := [.failed] }
      (retryStore failedDelivery) := by
  refine (retryCampaign_contract_iff _ _ _ _ _ (by decide)).mpr fun _ => ⟨.inl (by decide), ?_⟩
  have unleased : ∀ delivery ∈ (selected (effectiveFilter 2000000 (text "c1") { statuses := [.failed] })
      (retryStore failedDelivery).toDeliveryRepo).take (maxRetryChunks * 10),
      (retryStore failedDelivery).deliveries[delivery]?.all (fun d => d.status ≠ .leased) = true := by
    decide
  intro delivery listed d stored held
  have unheld := unleased delivery listed
  simp [stored, held.1] at unheld

/-- A request that names leased takes a delivery away from the sender that is
working on it. -/
theorem retryCampaign_takes_leased :
    ¬ ∀ (now : Time) (chunk : Nat) (newID : Nat → Text) (id : Text) (filter : RetryFilter)
        (s : TenantStore), 0 < chunk → RetryContract now chunk newID id filter s := by
  intro claimed
  let leased : Delivery := { status := .leased, leaseOwner := text "w", leaseUntil := 60000000 }
  have contract := claimed 2000000 10 (fun _ => []) (text "c1") { statuses := [.leased] }
    (retryStore leased) (by decide)
  have kept := contract.spares (text "d1") _ rfl ⟨rfl, by decide⟩
  have requeued : (((retryCampaign 2000000 10 (fun _ => []) (text "c1") { statuses := [.leased] }).exec
      (retryStore leased)).2.deliveries[text "d1"]?).map Delivery.status = some .queued := by
    decide +kernel
  rw [kept] at requeued
  cases requeued

end Sendplane.Control
