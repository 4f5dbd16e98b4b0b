import Sendplane.Memstore.Delivery

namespace Sendplane.Memstore

open Data Store Table List

namespace DeliveryRepo

variable {repo : DeliveryRepo}

theorem mem_claimed {id : Text} (taken : (id, d) ∈ repo.claimed req) :
    repo.deliveries[id]? = some d ∧ claimable req d = true := by
  have candidate := mem_of_mem_takeLimit taken
  rw [mem_insertionSort, mem_filter] at candidate
  exact ⟨mem_toList.mp candidate.1, candidate.2⟩

theorem claimed_nodup : ((repo.claimed req).map Prod.fst).Nodup := by
  have keys : (repo.deliveries.toList.map Prod.fst).Nodup := by
    have listed := keysWhere_nodup repo.deliveries fun _ _ => true
    simpa [keysWhere] using listed
  have sorted := ((perm_insertionSort (fun a b => claimLess a.2 b.2 = true)
    (repo.deliveries.toList.filter fun entry => claimable req entry.2)).map Prod.fst).nodup_iff.mpr
      (keys.sublist (filter_sublist.map Prod.fst))
  exact sorted.sublist (takeLimit_sublist.map Prod.fst)

theorem claim_changes (req : ClaimRequest) :
    Changes (fun id d next => (id, d) ∈ repo.claimed req ∧ claimable req d = true ∧
        next = leaseTo req d) repo.deliveries (repo.claim req).2.deliveries := by
  refine (changes_updateAll claimed_nodup).imp ?_
  intro id d next stored changed
  obtain ⟨listed, rfl⟩ := changed
  obtain ⟨⟨_, row⟩, taken, rfl⟩ := mem_map.mp listed
  obtain ⟨found, eligible⟩ := mem_claimed taken
  obtain rfl : row = d := Option.some.inj (found.symm.trans stored)
  exact ⟨taken, eligible, rfl⟩

theorem claim_get (id : Text) : (repo.claim req).2.deliveries[id]? =
      if id ∈ (repo.claimed req).map Prod.fst then repo.deliveries[id]?.map (leaseTo req) else repo.deliveries[id]? :=
  get_updateAll claimed_nodup

theorem completeOne_get (now : Time) (newID : Text) (res : DeliveryResult) (id : Text) :
    (repo.completeOne now newID res).deliveries[id]? =
      if repo.holdsLease res ∧ res.deliveryID = id then repo.deliveries[id]?.map (applyResult now res)
      else repo.deliveries[id]? := by
  unfold completeOne
  by_cases held : repo.holdsLease res = true
  · simp only [held, true_and]
    exact get_modify _ _ _ _
  · simp [held]

/-- The result of the batch that decides the row: the first one for it whose
owner holds the lease.  Applying it clears the lease, so no later one counts. -/
def decidingResult (repo : DeliveryRepo) (results : List DeliveryResult) (id : Text) :
    Option DeliveryResult :=
  results.find? fun res => res.deliveryID = id && repo.holdsLease res

theorem holdsLease_iff :
    repo.holdsLease res = true ↔ ∃ d, repo.deliveries[res.deliveryID]? = some d ∧
      res.leaseOwner ≠ [] ∧ d.leaseOwner = res.leaseOwner := by
  cases stored : repo.deliveries[res.deliveryID]? with
  | none | some => simp [holdsLease, stored]

theorem holdsLease_of_get {other : DeliveryRepo}
    (same : other.deliveries[res.deliveryID]? = repo.deliveries[res.deliveryID]?) :
    other.holdsLease res = repo.holdsLease res := by
  unfold holdsLease
  rw [same]

theorem completeFrom_get (index : Nat) (id : Text) :
    (completeFrom now newID index results repo).deliveries[id]? = match repo.decidingResult results id with
      | some res => repo.deliveries[id]?.map (applyResult now res)
      | none => repo.deliveries[id]? := by
  induction results generalizing repo index with
  | nil => rfl
  | cons res rest ih =>
      have step := repo.completeOne_get now (newID index) res
      by_cases target : res.deliveryID = id
      · cases held : repo.holdsLease res with
        | true =>
            have applied := step id
            rw [if_pos ⟨held, target⟩] at applied
            -- The lease is cleared, so the rest of the batch leaves the row alone.
            have later : (repo.completeOne now (newID index) res).decidingResult rest id = none := by
              rw [decidingResult, find?_eq_none]
              intro other _ decides
              simp only [Bool.and_eq_true, decide_eq_true_eq] at decides
              obtain ⟨row, stored, owned, owner⟩ := holdsLease_iff.mp decides.2
              rw [decides.1, applied, Option.map_eq_some_iff] at stored
              obtain ⟨d, _, rfl⟩ := stored
              exact owned owner.symm
            rw [completeFrom, ih, later]
            simp only [decidingResult, find?_cons, target, held, decide_true]
            exact applied
        | false =>
            have unchanged : repo.completeOne now (newID index) res = repo := by
              simp [completeOne, held]
            rw [completeFrom, unchanged, ih]
            simp [decidingResult, held]
      · have same := step id
        rw [if_neg fun both => target both.2] at same
        have decides : (repo.completeOne now (newID index) res).decidingResult rest id =
            repo.decidingResult (res :: rest) id := by
          simp only [decidingResult, find?_cons, target, decide_false]
          rw [← head?_filter, ← head?_filter]
          congr 1
          apply filter_congr
          intro other _
          by_cases matched : other.deliveryID = id
          · subst matched
            rw [holdsLease_of_get same]
          · simp [matched]
        rw [completeFrom, ih, decides, same]

theorem complete_get (id : Text) :
    (repo.complete clock newID results).deliveries[id]? = match repo.decidingResult results id with
      | some res => repo.deliveries[id]?.map (applyResult (truncateTime clock) res)
      | none => repo.deliveries[id]? :=
  completeFrom_get _ _

theorem mem_of_decidingResult {id : Text} (decides : repo.decidingResult results id = some res) :
    res ∈ results ∧ res.deliveryID = id ∧ repo.holdsLease res = true := by
  have passed := find?_some decides
  simp only [Bool.and_eq_true, decide_eq_true_eq] at passed
  exact ⟨mem_of_find?_eq_some decides, passed⟩

theorem complete_changes (clock : Time) (newID : Nat → Text) (results : List DeliveryResult) :
    Changes (fun id d next => ∃ res, repo.decidingResult results id = some res ∧
        res.leaseOwner ≠ [] ∧ d.leaseOwner = res.leaseOwner ∧
        next = applyResult (truncateTime clock) res d)
      repo.deliveries (repo.complete clock newID results).deliveries := by
  intro id
  rw [complete_get]
  cases decides : repo.decidingResult results id with
  | none => exact .inl rfl
  | some res =>
      obtain ⟨_, target, held⟩ := mem_of_decidingResult decides
      obtain ⟨d, stored, owned, owner⟩ := holdsLease_iff.mp held
      rw [target] at stored
      exact .inr ⟨d, _, stored, by simp [stored], res, decides, owned, owner, rfl⟩

theorem markSent_changes (id owner messageID : Text) (time : Time) :
    Changes (fun key d next => key = id ∧ d.status = .leased ∧ owner ≠ [] ∧
        d.leaseOwner = owner ∧ next = markSentRow messageID time d)
      repo.deliveries (repo.markSent id owner messageID time).2.deliveries := by
  unfold markSent
  cases stored : repo.deliveries[id]? with
  | none => exact .refl _
  | some d =>
      by_cases lost : d.status ≠ .leased ∨ owner = [] ∨ d.leaseOwner ≠ owner
      · simp only [lost]
        exact .refl _
      · simp only [lost]
        push Not at lost
        apply changes_modify.imp
        intro key old next found changed
        obtain ⟨rfl, rfl⟩ := changed
        obtain rfl : old = d := Option.some.inj (found.symm.trans stored)
        exact ⟨rfl, lost.1, lost.2.1, lost.2.2, rfl⟩

theorem markTerminal_changes (id : Text) : Changes (fun key d next => key = id ∧ d.status = .sent ∧
        next = markTerminalRow status time d) repo.deliveries (repo.markTerminal id status time).2.deliveries := by
  unfold markTerminal
  cases stored : repo.deliveries[id]? with
  | none => exact .refl _
  | some d =>
      by_cases unsent : d.status ≠ .sent
      · simp only [unsent, ne_eq, not_false_eq_true]
        exact .refl _
      · simp only [unsent]
        apply changes_modify.imp
        intro key old next found changed
        obtain ⟨rfl, rfl⟩ := changed
        obtain rfl : old = d := Option.some.inj (found.symm.trans stored)
        exact ⟨rfl, not_not.mp unsent, rfl⟩

def chosen (repo : DeliveryRepo) (test : Text → Delivery → Bool) (limit : Int) : List Text :=
  takeLimit limit (repo.deliveries.keysWhere test)

theorem chosen_nodup : (repo.chosen test limit).Nodup :=
  takeLimit_nodup (keysWhere_nodup _ _)

theorem mem_chosen {id : Text} (unlimited : limit ≤ 0) (stored : repo.deliveries[id]? = some d)
    (passed : test id d = true) : id ∈ repo.chosen test limit := by
  rw [chosen, takeLimit_nonpos unlimited, mem_keysWhere]
  exact ⟨d, stored, passed⟩

theorem changeWhere_get (id : Text) : (repo.changeWhere test limit change).2.deliveries[id]? =
      if id ∈ repo.chosen test limit then repo.deliveries[id]?.map change else repo.deliveries[id]? :=
  get_updateAll chosen_nodup

theorem changeWhere_changes (test : Text → Delivery → Bool) (limit : Int) (change : Delivery → Delivery) :
    Changes (fun id d next => id ∈ repo.chosen test limit ∧ test id d = true ∧
        next = change d) repo.deliveries (repo.changeWhere test limit change).2.deliveries := by
  refine (changes_updateAll chosen_nodup).imp ?_
  intro id d next stored changed
  obtain ⟨listed, rfl⟩ := changed
  obtain ⟨row, found, passed⟩ := mem_keysWhere.mp (mem_of_mem_takeLimit listed)
  obtain rfl : row = d := Option.some.inj (found.symm.trans stored)
  exact ⟨listed, passed, rfl⟩

end DeliveryRepo

end Sendplane.Memstore
