import Sendplane.Memstore.DeliveryRows

namespace Sendplane.Memstore

open Data Store List

namespace DeliveryRepo

variable {repo : DeliveryRepo} {now : Time} {newID : Nat → Text}

def skips (repo : DeliveryRepo) (d : Delivery) : Bool :=
  d.campaignID ≠ [] && repo.campaignEmails[emailKey d.campaignID d.emailNorm]?.isSome

def putRow (repo : DeliveryRepo) (now : Time) (d : Delivery) : DeliveryRepo :=
  let indexed := if d.campaignID ≠ [] then
      { repo with campaignEmails := repo.campaignEmails.insert (emailKey d.campaignID d.emailNorm) d.id }
    else repo
  indexed.putDelivery now d

@[simp] theorem withID_campaignID (id : Text) : (withID id d).campaignID = d.campaignID := by
  unfold withID
  split <;> rfl

@[simp] theorem withID_emailNorm (id : Text) : (withID id d).emailNorm = d.emailNorm := by
  unfold withID
  split <;> rfl

theorem insertRow_eq (id : Text) :
    repo.insertRow now id d = if repo.skips d then none else some (repo.putRow now (withID id d)) := by
  by_cases campaign : d.campaignID = []
  · simp [insertRow, skips, putRow, campaign]
  · cases indexed : repo.campaignEmails[emailKey d.campaignID d.emailNorm]? with
    | none => simp [insertRow, skips, putRow, campaign, indexed]
    | some owner => simp [insertRow, skips, campaign, indexed]

def accepted (now : Time) (newID : Nat → Text) : Nat → List Delivery → DeliveryRepo → List Delivery
  | _, [], _ => []
  | index, d :: rest, repo =>
      match repo.insertRow now (newID index) d with
      | none => accepted now newID (index + 1) rest repo
      | some next => withID (newID index) d :: accepted now newID (index + 1) rest next

variable {index : Nat} {d : Delivery}

theorem accepted_skipped (skipped : repo.skips d = true) :
    accepted now newID index (d :: rest) repo = accepted now newID (index + 1) rest repo := by
  simp [accepted, insertRow_eq, skipped]

theorem accepted_written (written : repo.skips d = false) :
    accepted now newID index (d :: rest) repo = withID (newID index) d ::
      accepted now newID (index + 1) rest (repo.putRow now (withID (newID index) d)) := by
  simp [accepted, insertRow_eq, written]

theorem insertRows_skipped (skipped : repo.skips d = true) :
    insertRows now newID index (d :: rest) repo = insertRows now newID (index + 1) rest repo := by
  simp [insertRows, insertRow_eq, skipped]

theorem insertRows_written (written : repo.skips d = false) :
    insertRows now newID index (d :: rest) repo =
      let (inserted, final) :=
        insertRows now newID (index + 1) rest (repo.putRow now (withID (newID index) d))
      (inserted + 1, final) := by
  simp [insertRows, insertRow_eq, written]

@[simp] theorem putRow_deliveries :
    (repo.putRow now d).deliveries = repo.deliveries.insert d.id (stampDelivery repo.tenant now d) := by
  unfold putRow putDelivery
  split <;> rfl

@[simp] theorem putRow_tenant : (repo.putRow now d).tenant = repo.tenant := by
  unfold putRow putDelivery
  split <;> rfl

theorem putRow_get (id : Text) : (repo.putRow now d).deliveries[id]? =
      if d.id = id then some (stampDelivery repo.tenant now d) else repo.deliveries[id]? := by
  rw [putRow_deliveries, Table.get_insert]

theorem insertRows_count (index : Nat) :
    (insertRows now newID index ds repo).1 = (accepted now newID index ds repo).length := by
  induction ds generalizing repo index with
  | nil => rfl
  | cons d rest ih =>
      cases skipped : repo.skips d with
      | true => rw [insertRows_skipped skipped, accepted_skipped skipped, ih]
      | false =>
          rw [insertRows_written skipped, accepted_written skipped, length_cons, ← ih]

theorem insertRows_get_of_not_mem {id : Text} (untouched : id ∉ (accepted now newID index ds repo).map Delivery.id) :
    (insertRows now newID index ds repo).2.deliveries[id]? = repo.deliveries[id]? := by
  induction ds generalizing repo index with
  | nil => rfl
  | cons d rest ih =>
      cases skipped : repo.skips d with
      | true =>
          rw [accepted_skipped skipped] at untouched
          rw [insertRows_skipped skipped, ih untouched]
      | false =>
          rw [accepted_written skipped, map_cons, mem_cons, not_or] at untouched
          rw [insertRows_written skipped]
          have later := ih untouched.2
          rw [putRow_get, if_neg (Ne.symm untouched.1)] at later
          exact later

theorem insertRows_get_of_mem {id : Text} (written : id ∈ (accepted now newID index ds repo).map Delivery.id) :
    (insertRows now newID index ds repo).2.deliveries[id]?.isSome := by
  induction ds generalizing repo index with
  | nil => simp [accepted] at written
  | cons d rest ih =>
      cases skipped : repo.skips d with
      | true =>
          rw [accepted_skipped skipped] at written
          rw [insertRows_skipped skipped]
          exact ih written
      | false =>
          rw [accepted_written skipped, map_cons, mem_cons] at written
          rw [insertRows_written skipped]
          by_cases again : id ∈ (accepted now newID (index + 1) rest
              (repo.putRow now (withID (newID index) d))).map Delivery.id
          · exact ih again
          · have first := written.resolve_right again
            have kept := insertRows_get_of_not_mem again
            rw [putRow_get, if_pos first.symm] at kept
            simp [kept]

theorem insertRows_stored {id : Text} (stored : (repo.deliveries[id]?).isSome) :
    ((insertRows now newID index ds repo).2.deliveries[id]?).isSome := by
  by_cases written : id ∈ (accepted now newID index ds repo).map Delivery.id
  · exact insertRows_get_of_mem written
  · rwa [insertRows_get_of_not_mem written]

theorem accepted_of_transactional (transactional : ∀ d ∈ ds, d.campaignID = [] ∧ d.id ≠ []) :
    accepted now newID index ds repo = ds := by
  induction ds generalizing repo index with
  | nil => rfl
  | cons d rest ih =>
      obtain ⟨first, others⟩ := forall_mem_cons.mp transactional
      have written : repo.skips d = false := by simp [skips, first.1]
      rw [accepted_written written, ih others, withID, if_neg first.2]

theorem insertRows_origin {id : Text} (stored : (insertRows now newID index ds repo).2.deliveries[id]? = some d) :
    repo.deliveries[id]? = some d ∨
      ∃ row ∈ accepted now newID index ds repo, row.id = id ∧ d = stampDelivery repo.tenant now row := by
  induction ds generalizing repo index with
  | nil => exact .inl stored
  | cons head rest ih =>
      cases skipped : repo.skips head with
      | true =>
          rw [insertRows_skipped skipped] at stored
          rw [accepted_skipped skipped]
          exact ih stored
      | false =>
          rw [insertRows_written skipped] at stored
          rw [accepted_written skipped]
          rcases ih stored with before | ⟨row, written, named, same⟩
          · rw [putRow_get] at before
            split at before
            · rename_i named
              cases before
              exact .inr ⟨_, mem_cons_self, named, rfl⟩
            · exact .inl before
          · rw [putRow_tenant] at same
            exact .inr ⟨row, mem_cons_of_mem _ written, named, same⟩

theorem insertBatch_origin {id : Text} (stored : (repo.insertBatch clock newID ds).2.deliveries[id]? = some d) :
    repo.deliveries[id]? = some d ∨ ∃ row ∈ accepted (truncateTime clock) newID 0 ds repo,
      row.id = id ∧ d = stampDelivery repo.tenant (truncateTime clock) row := by
  unfold insertBatch at stored
  split at stored
  · exact .inl stored
  · exact insertRows_origin stored

theorem mem_accepted (member : row ∈ accepted now newID index ds repo) : ∃ d ∈ ds, ∃ id, row = withID id d := by
  induction ds generalizing repo index with
  | nil => cases member
  | cons head rest ih =>
      have later : ∀ {next : DeliveryRepo}, row ∈ accepted now newID (index + 1) rest next →
          ∃ d ∈ head :: rest, ∃ id, row = withID id d := by
        intro next inside
        obtain ⟨d, listed, same⟩ := ih inside
        exact ⟨d, mem_cons_of_mem _ listed, same⟩
      cases skipped : repo.skips head with
      | true =>
          rw [accepted_skipped skipped] at member
          exact later member
      | false =>
          rw [accepted_written skipped] at member
          rcases mem_cons.mp member with first | inside
          · exact ⟨head, mem_cons_self, newID index, first⟩
          · exact later inside

def addedRows (before after : DeliveryRepo) : Nat :=
  (after.deliveries.keysWhere fun id _ => before.deliveries[id]?.isNone).length

/-- No accepted row carries the ID of a stored row or of another accepted row. -/
def FreshIDs (repo : DeliveryRepo) (rows : List Delivery) : Prop :=
  (rows.map Delivery.id).Nodup ∧ ∀ d ∈ rows, repo.deliveries[d.id]? = none

theorem FreshIDs.tail (fresh : repo.FreshIDs (d :: rows)) : (repo.putRow now d).FreshIDs rows := by
  obtain ⟨distinct, unstored⟩ := fresh
  rw [map_cons, nodup_cons] at distinct
  refine ⟨distinct.2, fun other member => ?_⟩
  have differs : d.id ≠ other.id := fun same =>
    distinct.1 (mem_map.mpr ⟨other, member, same.symm⟩)
  rw [putRow_get, if_neg differs]
  exact unstored other (mem_cons_of_mem _ member)

theorem insertRows_added (index : Nat) : repo.addedRows (insertRows now newID index ds repo).2 =
      (((accepted now newID index ds repo).map Delivery.id).filter
        fun id => repo.deliveries[id]?.isNone).dedup.length := by
  refine Perm.length_eq ((perm_ext_iff_of_nodup (Table.keysWhere_nodup _ _)
    (nodup_dedup _)).mpr fun id => ?_)
  rw [Table.mem_keysWhere, mem_dedup, mem_filter]
  constructor
  · intro present
    obtain ⟨row, stored, missing⟩ := present
    refine ⟨?_, missing⟩
    by_contra untouched
    rw [insertRows_get_of_not_mem untouched] at stored
    simp [stored] at missing
  · intro written
    obtain ⟨row, stored⟩ := Option.isSome_iff_exists.mp (insertRows_get_of_mem written.1)
    exact ⟨row, stored, written.2⟩

/-- The returned count is the number of new rows only if every accepted row
has an ID of its own. -/
theorem insertRows_added_iff (index : Nat) :
    (insertRows now newID index ds repo).1 = repo.addedRows (insertRows now newID index ds repo).2 ↔
      repo.FreshIDs (accepted now newID index ds repo) := by
  rw [insertRows_count, insertRows_added, ← length_map Delivery.id, length_eq_dedup_filter_iff, FreshIDs]
  simp

theorem insertRows_keeps {id : Text} (fresh : repo.FreshIDs (accepted now newID index ds repo))
    (stored : repo.deliveries[id]? = some d) : (insertRows now newID index ds repo).2.deliveries[id]? = some d := by
  rw [insertRows_get_of_not_mem, stored]
  intro written
  obtain ⟨row, member, rfl⟩ := mem_map.mp written
  rw [fresh.2 row member] at stored
  cases stored

/-- The index is the map from the campaign and address of each stored campaign
row to its ID. -/
def Indexed (repo : DeliveryRepo) : Prop :=
  ∀ key id : Text, repo.campaignEmails[key]? = some id ↔ ∃ d, repo.deliveries[id]? = some d ∧ d.campaignID ≠ [] ∧
      emailKey d.campaignID d.emailNorm = key

theorem stampDelivery_campaignID (tenant : Text) : (stampDelivery tenant now d).campaignID = d.campaignID := rfl

theorem stampDelivery_emailNorm (tenant : Text) : (stampDelivery tenant now d).emailNorm = d.emailNorm := rfl

theorem putRow_campaignEmails : (repo.putRow now d).campaignEmails = if d.campaignID ≠ [] then
        repo.campaignEmails.insert (emailKey d.campaignID d.emailNorm) d.id else repo.campaignEmails := by
  unfold putRow putDelivery
  split <;> rfl

theorem putRow_indexed (indexed : repo.Indexed) (unskipped : repo.skips d = false)
    (unstored : repo.deliveries[d.id]? = none) : (repo.putRow now d).Indexed := by
  intro key id
  rw [putRow_get, putRow_campaignEmails]
  by_cases campaign : d.campaignID = []
  · -- Outside the index: the new row has no campaign.
    rw [if_neg (by simpa using campaign), indexed key id]
    by_cases same : d.id = id
    · subst same
      simp [unstored, stampDelivery_campaignID, campaign]
    · simp [same]
  · have free : repo.campaignEmails[emailKey d.campaignID d.emailNorm]? = none := by
      simp only [skips, ne_eq, campaign, not_false_eq_true, decide_true, Bool.true_and] at unskipped
      exact Option.not_isSome_iff_eq_none.mp (by simp [unskipped])
    rw [if_pos campaign, Table.get_insert]
    by_cases same : d.id = id
    · subst same
      simp only [↓reduceIte, Option.some.injEq, exists_eq_left', stampDelivery_campaignID,
        stampDelivery_emailNorm, ne_eq, campaign, not_false_eq_true]
      by_cases matched : emailKey d.campaignID d.emailNorm = key
      · simp [matched]
      · rw [if_neg matched, indexed key d.id]
        simp [unstored, matched]
    · rw [if_neg same]
      by_cases matched : emailKey d.campaignID d.emailNorm = key
      · subst matched
        rw [← indexed _ id, free]
        simp [same]
      · rw [if_neg matched, indexed key id]

theorem insertRows_indexed (indexed : repo.Indexed) (fresh : repo.FreshIDs (accepted now newID index ds repo)) :
    (insertRows now newID index ds repo).2.Indexed := by
  induction ds generalizing repo index with
  | nil => exact indexed
  | cons d rest ih =>
      cases skipped : repo.skips d with
      | true =>
          rw [accepted_skipped skipped] at fresh
          rw [insertRows_skipped skipped]
          exact ih indexed fresh
      | false =>
          rw [accepted_written skipped] at fresh
          rw [insertRows_written skipped]
          have unskipped : repo.skips (withID (newID index) d) = false := by
            simpa [skips] using skipped
          have unstored := fresh.2 _ mem_cons_self
          exact ih (putRow_indexed indexed unskipped unstored) fresh.tail

end DeliveryRepo

end Sendplane.Memstore
