import Sendplane.Data.Roster
import Sendplane.Memstore.DeliveryInsert

namespace Sendplane.Store

/-- What a delivery of a campaign says of its recipient. -/
structure Recipient where
  email : Text
  name : Text
  locale : Text
  vars : Vars
  unsubscribeURL : Text

def Delivery.recipient (d : Delivery) : Recipient where
  email := d.email
  name := d.name
  locale := d.locale
  vars := d.vars
  unsubscribeURL := d.unsubscribeURL

end Sendplane.Store

namespace Sendplane.Memstore

open Data Store Roster List

namespace DeliveryRepo

variable {repo : DeliveryRepo} {campaignID : Text}

def recipients (repo : DeliveryRepo) (campaignID : Text) : Roster Text Recipient :=
  fun email => repo.campaignEmails[emailKey campaignID email]?.bind fun id =>
    repo.deliveries[id]?.map Delivery.recipient

def campaignSize (repo : DeliveryRepo) (campaignID : Text) : Nat :=
  (repo.deliveries.keysWhere fun _ d => d.campaignID = campaignID).length

def rowOf (d : Delivery) : Text × Recipient :=
  (d.emailNorm, d.recipient)

theorem emailKey_email_inj (same : emailKey campaignID left = emailKey campaignID right) : left = right := by
  simpa [emailKey] using same

variable {d : Delivery}

theorem skips_eq (indexed : repo.Indexed) (named : d.campaignID ≠ []) :
    repo.skips d = (repo.recipients d.campaignID d.emailNorm).isSome := by
  cases found : repo.campaignEmails[emailKey d.campaignID d.emailNorm]? with
  | none => simp [skips, recipients, found]
  | some id =>
      obtain ⟨row, stored, _⟩ := (indexed _ _).mp found
      simp [skips, recipients, found, named, stored]

theorem recipients_putRow (indexed : repo.Indexed) (named : d.campaignID ≠ []) (new : repo.skips d = false)
    (unstored : repo.deliveries[d.id]? = none) :
    (repo.putRow now d).recipients d.campaignID = enter (repo.recipients d.campaignID) (rowOf d) := by
  funext email
  rw [recipients, enter, putRow_campaignEmails, if_pos named, Table.get_insert]
  by_cases same : email = d.emailNorm
  · subst same
    rw [skips_eq indexed named, Option.isSome_eq_false_iff, Option.isNone_iff_eq_none] at new
    simp [rowOf, new, stampDelivery, truncateDelivery, Delivery.recipient]
  · have differs : emailKey d.campaignID d.emailNorm ≠ emailKey d.campaignID email := by
      intro equal
      exact same (emailKey_email_inj equal).symm
    rw [if_neg differs, rowOf, if_neg same, recipients]
    cases found : repo.campaignEmails[emailKey d.campaignID email]? with
    | none => rfl
    | some id =>
        obtain ⟨row, stored, _⟩ := (indexed _ _).mp found
        have other : d.id ≠ id := by
          rintro rfl
          rw [unstored] at stored
          cases stored
        simp only [Option.bind_some]
        rw [putRow_get, if_neg other]

theorem campaignSize_putRow (unstored : repo.deliveries[d.id]? = none) :
    (repo.putRow now d).campaignSize d.campaignID = repo.campaignSize d.campaignID + 1 := by
  rw [campaignSize, putRow_deliveries, Table.length_keysWhere_insert unstored]
  simp [stampDelivery_campaignID, campaignSize]

theorem insertRows_size_le (now : Time) (newID : Nat → Text) (index : Nat) (ds : List Delivery) (repo : DeliveryRepo)
    (campaignID : Text) :
    (insertRows now newID index ds repo).2.campaignSize campaignID ≤
        repo.campaignSize campaignID + (insertRows now newID index ds repo).1 ∧
      (insertRows now newID index ds repo).1 ≤ ds.length := by
  induction ds generalizing repo index with
  | nil => exact ⟨Nat.le_refl _, Nat.le_refl _⟩
  | cons d rest ih =>
      cases skipped : repo.skips d with
      | true =>
          rw [insertRows_skipped skipped]
          obtain ⟨size, count⟩ := ih (index + 1) repo
          exact ⟨size, Nat.le_succ_of_le count⟩
      | false =>
          rw [insertRows_written skipped]
          obtain ⟨size, count⟩ := ih (index + 1) (repo.putRow now (withID (newID index) d))
          have row : (repo.putRow now (withID (newID index) d)).campaignSize campaignID ≤ repo.campaignSize campaignID + 1 := by
            rw [campaignSize, putRow_deliveries]
            exact Table.length_keysWhere_insert_le _
          dsimp only
          rw [length_cons]
          omega

/-- What an insert of new rows does to the roster of its campaign. -/
structure Admits (campaignID : Text) (before after : DeliveryRepo) (rows : List (Text × Recipient)) : Prop where
  recipients : after.recipients campaignID = Roster.enlist (before.recipients campaignID) rows
  size : after.campaignSize campaignID =
    before.campaignSize campaignID + Roster.added (before.recipients campaignID) rows

theorem Admits.refl (campaignID : Text) (repo : DeliveryRepo) : Admits campaignID repo repo [] :=
  ⟨rfl, rfl⟩

variable {after : DeliveryRepo}

theorem Admits.trans (admits : Admits campaignID before middle first)
    (then_ : Admits campaignID middle after second) : Admits campaignID before after (first ++ second) := by
  constructor
  · rw [then_.recipients, admits.recipients, enlist_append]
  · rw [then_.size, admits.size, admits.recipients, added_append, Nat.add_assoc]

theorem Admits.repeated (admits : Admits campaignID before after (first ++ second))
    (repeated : row.1 ∈ first.map Prod.fst) : Admits campaignID before after (first ++ row :: second) := by
  constructor
  · rw [admits.recipients, enlist_repeated repeated]
  · rw [admits.size, added_repeated repeated]

def Rows (campaignID : Text) (ds : List Delivery) : Prop :=
  ∀ d ∈ ds, d.campaignID = campaignID ∧ d.id ≠ []

theorem FreshIDs.skip (fresh : repo.FreshIDs (d :: rows)) : repo.FreshIDs rows :=
  ⟨(nodup_cons.mp fresh.1).2, fun other member => fresh.2 other (mem_cons_of_mem _ member)⟩

theorem insertRows_admits (index : Nat) (named : campaignID ≠ []) (indexed : repo.Indexed)
    (fresh : repo.FreshIDs (ds ++ later)) (rows : Rows campaignID ds) :
    Admits campaignID repo (insertRows now newID index ds repo).2 (ds.map rowOf) ∧
      (insertRows now newID index ds repo).1 = added (repo.recipients campaignID) (ds.map rowOf) ∧
      (insertRows now newID index ds repo).2.Indexed ∧ (insertRows now newID index ds repo).2.FreshIDs later := by
  induction ds generalizing repo index with
  | nil => exact ⟨Admits.refl campaignID repo, rfl, indexed, fresh⟩
  | cons d rest ih =>
      obtain ⟨rfl, hasID⟩ := rows d mem_cons_self
      have others : Rows d.campaignID rest := fun other member => rows other (mem_cons_of_mem _ member)
      have sameID : withID (newID index) d = d := by simp [withID, hasID]
      have taken := skips_eq (d := d) indexed named
      cases skipped : repo.skips d with
      | true =>
          rw [insertRows_skipped skipped]
          obtain ⟨admits, count, kept, unused⟩ := ih (index + 1) indexed fresh.skip others
          have known : (repo.recipients d.campaignID (rowOf d).1).isSome := by rw [← taken.symm.trans skipped]; rfl
          refine ⟨⟨?_, ?_⟩, ?_, kept, unused⟩
          · rw [admits.recipients, map_cons, enlist_cons, enter_known known]
          · rw [admits.size, map_cons, added_cons_known known]
          · rw [count, map_cons, added_cons_known known]
      | false =>
          rw [insertRows_written skipped, sameID]
          have unstored := fresh.2 d mem_cons_self
          have next : (repo.putRow now d).FreshIDs (rest ++ later) := fresh.tail
          obtain ⟨admits, count, kept, unused⟩ := ih (index + 1) (putRow_indexed indexed skipped unstored) next others
          have free : ¬(repo.recipients d.campaignID (rowOf d).1).isSome := by
            rw [rowOf, ← taken, skipped]
            simp
          have entered : (repo.putRow now d).recipients d.campaignID = _ := recipients_putRow indexed named skipped unstored
          rw [entered] at count
          refine ⟨⟨?_, ?_⟩, ?_, kept, unused⟩
          · rw [admits.recipients, entered, map_cons, enlist_cons]
          · rw [admits.size, entered, campaignSize_putRow unstored, map_cons, added, if_neg free]
            omega
          · dsimp only
            rw [map_cons, added, if_neg free]
            omega

end DeliveryRepo

end Sendplane.Memstore
