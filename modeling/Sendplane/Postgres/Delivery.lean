import Sendplane.Memstore.DeliveryInsert

namespace Sendplane.Postgres

open Data Store List

def tsIn (time : Time) : Option Time :=
  if time = 0 then none else some (truncateTime time)

def tsInNN (time : Time) : Time :=
  truncateTime time

def tsOut (column : Option Time) : Time :=
  column.getD 0

@[simp] theorem tsOut_tsIn : tsOut (tsIn time) = truncateTime time := by
  unfold tsIn tsOut
  split
  · simp_all
  · rfl

def deliveryValues (d : Delivery) : Delivery :=
  { d with
    nextAttemptAt := tsInNN d.nextAttemptAt
    leaseUntil := tsOut (tsIn d.leaseUntil)
    sentAt := tsOut (tsIn d.sentAt)
    finishedAt := tsOut (tsIn d.finishedAt)
    firstOpenedAt := tsOut (tsIn d.firstOpenedAt)
    firstClickedAt := tsOut (tsIn d.firstClickedAt)
    unsubscribedAt := tsOut (tsIn d.unsubscribedAt)
    createdAt := tsInNN d.createdAt
    updatedAt := tsInNN d.updatedAt }

def insertValuesOf (tenant : Text) (now : Time) (newID : Text) (d : Delivery) : Delivery :=
  deliveryValues { d with
    id := if d.id = [] then newID else d.id
    tenantID := tenant
    createdAt := if d.createdAt = 0 then now else d.createdAt
    updatedAt := now
    nextAttemptAt := if d.nextAttemptAt = 0 then now else d.nextAttemptAt }

def batchKey (d : Delivery) : Text :=
  d.campaignID ++ 0 :: d.emailNorm

/-- The rows of the statement: the batch without its repetitions of a campaign
and address. -/
def collapse (tenant : Text) (now : Time) (newID : Nat → Text) :
    Nat → List Delivery → List Text → List Delivery
  | _, [], _ => []
  | index, d :: rest, seen =>
      if d.campaignID ≠ [] ∧ batchKey d ∈ seen then collapse tenant now newID (index + 1) rest seen
      else
        let seen := if d.campaignID ≠ [] then batchKey d :: seen else seen
        insertValuesOf tenant now (newID index) d :: collapse tenant now newID (index + 1) rest seen

/-- A row conflicts on its primary key, or on the partial unique index. -/
def conflicts (table : Table Text Delivery) (row : Delivery) : Bool :=
  table[row.id]?.isSome ||
    (row.campaignID ≠ [] && table.toList.any fun entry =>
      entry.2.campaignID = row.campaignID && entry.2.emailNorm = row.emailNorm)

/-- Rows are inserted in turn; the result is the number of affected rows. -/
def insertOnConflictDoNothing : List Delivery → Table Text Delivery → Nat × Table Text Delivery
  | [], table => (0, table)
  | row :: rest, table =>
      if conflicts table row then insertOnConflictDoNothing rest table
      else
        let (affected, final) := insertOnConflictDoNothing rest (table.insert row.id row)
        (affected + 1, final)

/-- `INSERT ... ON CONFLICT DO NOTHING`, against the primary key and the index. -/
def insertBatch (tenant : Text) (table : Table Text Delivery) (clock : Time) (newID : Nat → Text)
    (ds : List Delivery) : Except Err Nat × Table Text Delivery :=
  match ds.findIdx? fun d => d.emailNorm = [] with
  | some index =>
      (.error (.wrap .invalid
        (text "delivery " ++ text (toString index) ++ text " has no email_norm")), table)
  | none =>
      let rows := collapse tenant (truncateTime clock) newID 0 ds []
      let (affected, final) := insertOnConflictDoNothing rows table
      (.ok affected, final)

open Memstore

theorem insertValuesOf_eq (id : Text) : insertValuesOf tenant now id d = stampDelivery tenant now (withID id d) := by
  unfold insertValuesOf deliveryValues stampDelivery truncateDelivery withID
  simp only [tsOut_tsIn]
  split <;> rfl

/-- The key of the unique index determines campaign and address, because no
campaign ID holds a NUL byte (a PostgreSQL text cannot hold one). -/
theorem emailKey_inj (leftFree : 0 ∉ left) (rightFree : 0 ∉ right)
    (same : emailKey left leftEmail = emailKey right rightEmail) : left = right ∧ leftEmail = rightEmail := by
  induction left generalizing right with
  | nil =>
      cases right with
      | nil => simpa [emailKey] using same
      | cons byte rest =>
          simp only [emailKey, nil_append, cons_append, cons.injEq] at same
          exact absurd (same.1 ▸ mem_cons_self) rightFree
  | cons byte rest ih =>
      cases right with
      | nil =>
          simp only [emailKey, nil_append, cons_append, cons.injEq] at same
          exact absurd (same.1 ▸ mem_cons_self) leftFree
      | cons other tail =>
          simp only [emailKey, cons_append, cons.injEq] at same
          rw [mem_cons, not_or] at leftFree rightFree
          obtain ⟨restEq, emailEq⟩ := ih leftFree.2 rightFree.2 same.2
          exact ⟨by rw [same.1, restEq], emailEq⟩

/-- The campaign ID has no NUL, which a text column does not take. -/
def Storable (d : Delivery) : Prop :=
  0 ∉ d.campaignID

instance (d : Delivery) : Decidable (Storable d) :=
  inferInstanceAs (Decidable (0 ∉ d.campaignID))

variable {repo : DeliveryRepo} {newID : Nat → Text}

def StoresOnly (repo : DeliveryRepo) : Prop :=
  ∀ (id : Text) (d : Delivery), repo.deliveries[id]? = some d → Storable d

variable {d : Delivery}

theorem storesOnly_putRow (stored : StoresOnly repo) (storable : Storable d) : StoresOnly (repo.putRow now d) := by
  intro id other present
  rw [DeliveryRepo.putRow_get] at present
  split at present
  · cases present
    exact storable
  · exact stored id other present

theorem conflicts_eq_skips (indexed : repo.Indexed) (stored : StoresOnly repo) (storable : Storable d)
    (unstored : repo.deliveries[d.id]? = none) : conflicts repo.deliveries d = repo.skips d := by
  unfold conflicts DeliveryRepo.skips
  rw [unstored, Option.isSome_none, Bool.false_or]
  by_cases none : d.campaignID = []
  · simp [none]
  simp only [ne_eq, none, not_false_eq_true, decide_true, Bool.true_and]
  rw [Bool.eq_iff_iff, any_eq_true, Option.isSome_iff_exists]
  constructor
  · intro found
    obtain ⟨⟨id, other⟩, member, same⟩ := found
    simp only [Bool.and_eq_true, decide_eq_true_eq] at same
    refine ⟨id, (indexed _ id).mpr ⟨other, Table.mem_toList.mp member, ?_, ?_⟩⟩
    · rw [same.1]
      exact none
    · rw [same.1, same.2]
  · intro found
    obtain ⟨id, owner⟩ := found
    obtain ⟨other, present, _, key⟩ := (indexed _ id).mp owner
    obtain ⟨sameCampaign, sameEmail⟩ := emailKey_inj (stored id other present) storable key
    exact ⟨(id, other), Table.mem_toList.mpr present, by simp [sameCampaign, sameEmail]⟩

theorem conflicts_of_skips (indexed : repo.Indexed) (stored : StoresOnly repo) (storable : Storable d)
    (skipped : repo.skips d = true) : conflicts repo.deliveries d = true := by
  cases present : repo.deliveries[d.id]? with
  | some other => simp [conflicts, present]
  | none => rw [conflicts_eq_skips indexed stored storable present, skipped]

/-- What the batch has shown so far is in the index. -/
def Recorded (repo : DeliveryRepo) (seen : List Text) : Prop :=
  ∀ key ∈ seen, ∃ id, repo.campaignEmails[key]? = some id

theorem skips_iff : repo.skips d = true ↔ d.campaignID ≠ [] ∧ ∃ id, repo.campaignEmails[batchKey d]? = some id := by
  unfold DeliveryRepo.skips
  rw [Bool.and_eq_true, Option.isSome_iff_exists, decide_eq_true_eq]
  rfl

theorem recorded_skip (recorded : Recorded repo seen) (skipped : repo.skips d = true) :
    Recorded repo (if d.campaignID ≠ [] then batchKey d :: seen else seen) := by
  obtain ⟨campaign, present⟩ := skips_iff.mp skipped
  rw [if_pos campaign]
  intro key member
  rcases mem_cons.mp member with rfl | earlier
  · exact present
  · exact recorded key earlier

theorem recorded_putRow (recorded : Recorded repo seen) :
    Recorded (repo.putRow now d) (if d.campaignID ≠ [] then batchKey d :: seen else seen) := by
  unfold Recorded
  rw [DeliveryRepo.putRow_campaignEmails]
  by_cases campaign : d.campaignID ≠ []
  · rw [if_pos campaign, if_pos campaign]
    intro key member
    rw [Table.get_insert]
    rcases mem_cons.mp member with rfl | earlier
    · exact ⟨d.id, if_pos rfl⟩
    · split
      · exact ⟨d.id, rfl⟩
      · exact recorded key earlier
  · rw [if_neg campaign, if_neg campaign]
    exact recorded

/-- Naming and stamping a row changes neither its campaign nor its address. -/
theorem storable_stamped (storable : Storable d) : Storable (stampDelivery tenant now (withID fresh d)) := by
  simpa [Storable, DeliveryRepo.stampDelivery_campaignID] using storable

theorem skips_stamped : repo.skips (stampDelivery tenant now (withID fresh d)) = repo.skips d := by
  simp [DeliveryRepo.skips, DeliveryRepo.stampDelivery_campaignID, DeliveryRepo.stampDelivery_emailNorm]

theorem skips_withID : repo.skips (withID fresh d) = repo.skips d := by
  simp [DeliveryRepo.skips]

theorem recorded_putNamed (recorded : Recorded repo seen) :
    Recorded (repo.putRow now (withID fresh d)) (if d.campaignID ≠ [] then batchKey d :: seen else seen) := by
  have next : Recorded (repo.putRow now (withID fresh d))
      (if (withID fresh d).campaignID ≠ [] then batchKey (withID fresh d) :: seen else seen) :=
    recorded_putRow recorded
  simpa [batchKey] using next

theorem unseen_of_unskipped (recorded : Recorded repo seen) (written : repo.skips d = false) :
    ¬ (d.campaignID ≠ [] ∧ batchKey d ∈ seen) := by
  intro known
  have skips := skips_iff.mpr ⟨known.1, recorded _ known.2⟩
  rw [written] at skips
  cases skips

variable {ds : List Delivery}

theorem insertRows_agree {index : Nat} (indexed : repo.Indexed)
    (fresh : repo.FreshIDs (DeliveryRepo.accepted now newID index ds repo)) (stored : StoresOnly repo)
    (storable : ∀ d ∈ ds, Storable d) (recorded : Recorded repo seen) :
    insertOnConflictDoNothing (collapse repo.tenant now newID index ds seen) repo.deliveries =
      ((DeliveryRepo.insertRows now newID index ds repo).1,
        (DeliveryRepo.insertRows now newID index ds repo).2.deliveries) := by
  induction ds generalizing repo index seen with
  | nil => rfl
  | cons d rest ih =>
      have restStorable := fun other member => storable other (mem_cons_of_mem d member)
      have stamped : Storable (stampDelivery repo.tenant now (withID (newID index) d)) :=
        storable_stamped (storable d mem_cons_self)
      cases skipped : repo.skips d with
      | true =>
          have conflict : conflicts repo.deliveries
              (stampDelivery repo.tenant now (withID (newID index) d)) = true :=
            conflicts_of_skips indexed stored stamped ((skips_stamped ..).trans skipped)
          rw [DeliveryRepo.accepted_skipped skipped] at fresh
          rw [DeliveryRepo.insertRows_skipped skipped, collapse]
          split
          · exact ih indexed fresh stored restStorable recorded
          · rw [insertValuesOf_eq, insertOnConflictDoNothing, conflict]
            exact ih indexed fresh stored restStorable (recorded_skip recorded skipped)
      | false =>
          rw [DeliveryRepo.accepted_written skipped] at fresh
          have unstored : repo.deliveries[(withID (newID index) d).id]? = none := fresh.2 _ mem_cons_self
          have accepts : conflicts repo.deliveries
              (stampDelivery repo.tenant now (withID (newID index) d)) = false := by
            rw [conflicts_eq_skips indexed stored stamped unstored, skips_stamped, skipped]
          have reindexed : (repo.putRow now (withID (newID index) d)).Indexed :=
            DeliveryRepo.putRow_indexed indexed ((skips_withID ..).trans skipped) unstored
          have tail := ih reindexed fresh.tail (storesOnly_putRow stored stamped) restStorable
            (recorded_putNamed recorded)
          rw [DeliveryRepo.insertRows_written skipped, collapse, if_neg (unseen_of_unskipped recorded skipped),
            insertValuesOf_eq, insertOnConflictDoNothing, accepts, if_neg Bool.false_ne_true]
          rw [DeliveryRepo.putRow_tenant, DeliveryRepo.putRow_deliveries] at tail
          have row : (stampDelivery repo.tenant now (withID (newID index) d)).id = (withID (newID index) d).id := rfl
          rw [row, tail]

/-- What one InsertBatch call owes its caller: stored rows stay, the count is that
of the new rows, the index describes the rows, a batch with a row without address
writes nothing, and PostgreSQL would have answered and stored the same. -/
structure InsertContract (repo : DeliveryRepo) (clock : Time) (newID : Nat → Text)
    (ds : List Delivery) : Prop where
  keepsRows : ∀ (id : Text) (d : Delivery), repo.deliveries[id]? = some d →
    (repo.insertBatch clock newID ds).2.deliveries[id]? = some d
  counts : ∀ inserted, (repo.insertBatch clock newID ds).1 = .ok inserted →
    inserted = repo.addedRows (repo.insertBatch clock newID ds).2
  indexed : (repo.insertBatch clock newID ds).2.Indexed
  rejects : (∃ d ∈ ds, d.emailNorm = []) →
    (∃ failure, (repo.insertBatch clock newID ds).1 = .error failure ∧ failure.kind = .invalid) ∧
      (repo.insertBatch clock newID ds).2 = repo
  agrees : insertBatch repo.tenant repo.deliveries clock newID ds =
    ((repo.insertBatch clock newID ds).1, (repo.insertBatch clock newID ds).2.deliveries)

theorem insertBatch_rejected (missing : ∃ d ∈ ds, d.emailNorm = []) :
    ∃ failure, failure.kind = .invalid ∧ repo.insertBatch clock newID ds = (.error failure, repo) ∧
      insertBatch repo.tenant repo.deliveries clock newID ds = (.error failure, repo.deliveries) := by
  cases position : ds.findIdx? fun d => d.emailNorm = [] with
  | some index =>
      simp only [DeliveryRepo.insertBatch, insertBatch, position]
      exact ⟨_, rfl, rfl, rfl⟩
  | none =>
      obtain ⟨d, member, empty⟩ := missing
      have present := findIdx?_eq_none_iff.mp position d member
      simp [empty] at present

theorem insertBatch_validated (present : ¬ ∃ d ∈ ds, d.emailNorm = []) :
    repo.insertBatch clock newID ds = (.ok (DeliveryRepo.insertRows (truncateTime clock) newID 0 ds repo).1,
          (DeliveryRepo.insertRows (truncateTime clock) newID 0 ds repo).2) ∧
      insertBatch repo.tenant repo.deliveries clock newID ds = (.ok (insertOnConflictDoNothing
            (collapse repo.tenant (truncateTime clock) newID 0 ds []) repo.deliveries).1, (insertOnConflictDoNothing
            (collapse repo.tenant (truncateTime clock) newID 0 ds []) repo.deliveries).2) := by
  have valid : (ds.findIdx? fun d => d.emailNorm = []) = none := by
    rw [findIdx?_eq_none_iff]
    intro d member
    simpa using fun empty => present ⟨d, member, empty⟩
  unfold DeliveryRepo.insertBatch insertBatch
  rw [valid]
  exact ⟨rfl, rfl⟩

/-- InsertBatch meets its contract exactly for the batches whose written rows
all have an ID of their own: a row that carries the ID of a stored row replaces
it, and two rows of one ID leave one row behind. -/
theorem insertBatch_contract_iff (clock : Time) (ds : List Delivery) (indexed : repo.Indexed)
    (stored : StoresOnly repo) (storable : ∀ d ∈ ds, Storable d) :
    InsertContract repo clock newID ds ↔ (∃ d ∈ ds, d.emailNorm = []) ∨
        repo.FreshIDs (DeliveryRepo.accepted (truncateTime clock) newID 0 ds repo) := by
  by_cases missing : ∃ d ∈ ds, d.emailNorm = []
  · obtain ⟨failure, invalid, rejected, same⟩ := insertBatch_rejected missing
    refine iff_of_true ⟨?_, ?_, ?_, ?_, ?_⟩ (.inl missing)
    · intro id d present
      rw [rejected]
      exact present
    · intro inserted ok
      rw [rejected] at ok
      cases ok
    · rw [rejected]
      exact indexed
    · intro _
      rw [rejected]
      exact ⟨⟨failure, rfl, invalid⟩, rfl⟩
    · rw [rejected, same]
  · obtain ⟨written, postgres⟩ := insertBatch_validated missing
    rw [or_iff_right missing]
    constructor
    · intro contract
      rw [← DeliveryRepo.insertRows_added_iff]
      have counted := contract.counts
      rw [written] at counted
      exact counted _ rfl
    · intro fresh
      refine ⟨?_, ?_, ?_, ?_, ?_⟩
      · intro id d present
        rw [written]
        exact DeliveryRepo.insertRows_keeps fresh present
      · intro inserted ok
        rw [written] at ok ⊢
        cases ok
        exact (DeliveryRepo.insertRows_added_iff 0).mpr fresh
      · rw [written]
        exact DeliveryRepo.insertRows_indexed indexed fresh
      · intro absent
        exact absurd absent missing
      · rw [written, postgres, insertRows_agree indexed fresh stored storable (by simp [Recorded])]

/-- A tenant with one message sent under a caller-supplied ID. -/
def keyedMessage (status : DeliveryStatus) : Delivery :=
  { id := text "m1", emailNorm := text "a@x.io", lane := .transactional, status }

def keyedRepo : DeliveryRepo :=
  ({} : DeliveryRepo).putRow 0 (keyedMessage .sent)

theorem keyedRepo_indexed : keyedRepo.Indexed := by
  apply DeliveryRepo.putRow_indexed
  · intro key id
    simp
  · rfl
  · rfl

theorem keyedRepo_storesOnly : StoresOnly keyedRepo := by
  apply storesOnly_putRow
  · intro id d present
    simp at present
  · decide

def newsletterRow : Delivery :=
  { campaignID := text "c1", emailNorm := text "b@x.io" }

theorem insertBatch_contract_newsletter : InsertContract keyedRepo 5000000 (fun _ => text "new") [newsletterRow] :=
  (insertBatch_contract_iff 5000000 [newsletterRow] keyedRepo_indexed keyedRepo_storesOnly
    (by decide)).mpr
    (.inr ⟨by decide, by decide⟩)

/-- A second message under the same key replaces the row that was sent. -/
theorem insertBatch_replaces_stored :
    ¬ ∀ (repo : DeliveryRepo) (clock : Time) (newID : Nat → Text) (ds : List Delivery),
        repo.Indexed → StoresOnly repo → (∀ d ∈ ds, Storable d) → InsertContract repo clock newID ds := by
  intro claimed
  have contract := claimed keyedRepo 5000000 (fun _ => text "new") [keyedMessage .queued]
    keyedRepo_indexed keyedRepo_storesOnly (by decide)
  obtain ⟨d, stored, sent⟩ : ∃ d, keyedRepo.deliveries[text "m1"]? = some d ∧ d.status = .sent := ⟨_, rfl, rfl⟩
  have kept := contract.keepsRows (text "m1") d stored
  have queued : ((keyedRepo.insertBatch 5000000 (fun _ => text "new")
      [keyedMessage .queued]).2.deliveries[text "m1"]?).map Delivery.status = some .queued := by
    decide
  rw [kept, Option.map_some, sent] at queued
  cases queued

end Sendplane.Postgres
