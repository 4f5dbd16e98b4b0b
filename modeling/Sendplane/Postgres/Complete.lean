import Sendplane.Postgres.Delivery
import Sendplane.Postgres.Statement

namespace Sendplane.Postgres

open Data Store Memstore DeliveryRepo Table List

structure QueueTables where
  tenant : Text := []
  deliveries : Table Text Delivery := ∅
  attempts : Table Text DeliveryAttempt := ∅

def smtpCode (code : Int) : Int :=
  if code < -2147483648 ∨ code > 2147483647 then 0 else code

def joined (results : List DeliveryResult) (id : Text) (d : Delivery) : List DeliveryResult :=
  results.filter fun res => res.deliveryID = id && (res.leaseOwner ≠ [] && d.leaseOwner = res.leaseOwner)

/-- A target row that is joined by several source rows is updated once, from one
of them; which one is up to the database. -/
structure Choice where
  pick : Text → List DeliveryResult → Option DeliveryResult
  pick_mem : ∀ id results res, pick id results = some res → res ∈ results
  pick_some : ∀ id results, results ≠ [] → (pick id results).isSome = true

def completeRow (now : Time) (res : DeliveryResult) (d : Delivery) : Delivery :=
  { d with
    status := res.newStatus
    lastErrorClass := res.errorClass
    lastSMTPCode := smtpCode res.smtpCode
    lastError := res.error
    messageID := if res.messageID ≠ [] then res.messageID else d.messageID
    attemptCount := d.attemptCount + if res.incrementAttempt then 1 else 0
    nextAttemptAt := (tsIn res.nextAttemptAt).getD d.nextAttemptAt
    sentAt := if res.newStatus = .sent ∧ d.sentAt = 0 then now else d.sentAt
    finishedAt := if res.newStatus.terminal then now else d.finishedAt
    leaseOwner := []
    leaseUntil := 0
    updatedAt := now }

def completeStatement (choice : Choice) (now : Time) (results : List DeliveryResult)
    (deliveries : Table Text Delivery) : Table Text Delivery :=
  deliveries.map fun id d => ((choice.pick id (joined results id d)).map fun res => completeRow now res d).getD d

def applied (results : List DeliveryResult) (deliveries : Table Text Delivery) (id : Text) : Bool :=
  deliveries[id]?.any fun d => !(joined results id d).isEmpty

def attemptValues (tenant : Text) (now : Time) (newID : Text) (a : DeliveryAttempt) : DeliveryAttempt :=
  { a with
    id := if a.id = [] then newID else a.id
    tenantID := tenant
    startedAt := tsOut (tsIn a.startedAt)
    finishedAt := tsOut (tsIn a.finishedAt)
    createdAt := tsInNN (if a.createdAt = 0 then now else a.createdAt) }

def attemptRows (tenant : Text) (now : Time) (newID : Nat → Text) (done : Text → Bool) :
    Nat → List DeliveryResult → List DeliveryAttempt
  | _, [] => []
  | index, res :: rest =>
      let later := attemptRows tenant now newID done (index + 1) rest
      match res.attempt with
      | none => later
      | some a =>
          if done res.deliveryID then
            attemptValues tenant now (newID index) { a with deliveryID := res.deliveryID } :: later
          else later

def attemptParams (a : DeliveryAttempt) : List Value :=
  [.text a.id, .text a.tenantID, .text a.deliveryID, .int a.attemptNo, .int a.retryGen, .text a.transportID,
    .time (tsIn a.startedAt), .time (tsIn a.finishedAt), .int a.smtpCode, .text a.enhancedCode, .errorClass a.errorClass,
    .text a.error, .time (tsInNN a.createdAt)]

def insertAttempts (rows : List DeliveryAttempt) : Option Statement :=
  insertInto (text ("delivery_attempt (id, tenant_id, delivery_id, attempt_no, retry_gen, transport_id, started_at, " ++
      "finished_at, smtp_code, enhanced_code, error_class, error_text, created_at)"))
    (rows.map attemptParams)

theorem accepted_insertAttempts_iff {rows : List DeliveryAttempt} :
    Accepted (insertAttempts rows) ↔ rows.length ≤ 5041 := by
  rw [insertAttempts, accepted_insertInto_iff 13, length_map, maxParams]
  · omega
  · simp [attemptParams]

/-- Nothing comes of it where the second statement is refused, because the
transaction is then rolled back. -/
def complete (choice : Choice) (clock : Time) (newID : Nat → Text) (results : List DeliveryResult)
    (t : QueueTables) : Option QueueTables :=
  let now := truncateTime clock
  let rows := attemptRows t.tenant now newID (applied results t.deliveries) 0 results
  if Accepted (insertAttempts rows) then
    some { t with
      deliveries := completeStatement choice now results t.deliveries
      -- ON CONFLICT DO NOTHING
      attempts := t.attempts.insertNew (fun a => a.id) rows }
  else none

/-- The attempts that are recorded in turn, one for each result that holds the
lease when it comes up. -/
def recordedAttempts (now : Time) (newID : Nat → Text) :
    Nat → List DeliveryResult → DeliveryRepo → List DeliveryAttempt
  | _, [], _ => []
  | index, res :: rest, repo =>
      let later := recordedAttempts now newID (index + 1) rest (repo.completeOne now (newID index) res)
      if repo.holdsLease res then
        (res.attempt.map (stampAttempt repo.tenant now (newID index) res.deliveryID)).toList ++ later
      else later

theorem completeFrom_attempts (index : Nat) (repo : DeliveryRepo) :
    (completeFrom now newID index results repo).attempts =
      repo.attempts.overwriteAll (fun a => a.id) (recordedAttempts now newID index results repo) := by
  induction results generalizing index repo with
  | nil => rfl
  | cons res rest ih =>
      rw [completeFrom, ih, recordedAttempts]
      by_cases held : repo.holdsLease res = true
      · cases attempt : res.attempt with
        | none => simp [completeOne, held, attempt]
        | some a => simp [completeOne, held, attempt, overwriteAll]
      · simp [completeOne, held]

/-- The times of the row are whole milliseconds. -/
def Written (d : Delivery) : Prop :=
  truncateDelivery d = d

instance (d : Delivery) : Decidable (Written d) :=
  inferInstanceAs (Decidable (truncateDelivery d = d))

variable {d : Delivery}

theorem applyResult_eq (written : Written d) (whole : truncateTime now = now) :
    applyResult now res d = { completeRow now res d with lastSMTPCode := res.smtpCode } := by
  have keeps : ∀ (condition : Prop) [Decidable condition] (time : Time), truncateTime time = time →
      truncateTime (if condition then now else time) = if condition then now else time := by
    intro condition _ time same
    split
    · exact whole
    · exact same
  have nextAttempt : truncateTime (if res.nextAttemptAt ≠ 0 then res.nextAttemptAt else d.nextAttemptAt) =
      (tsIn res.nextAttemptAt).getD d.nextAttemptAt := by
    have same : truncateTime d.nextAttemptAt = d.nextAttemptAt := congrArg Delivery.nextAttemptAt written
    by_cases zero : res.nextAttemptAt = 0
    · simp [tsIn, zero, same]
    · simp [tsIn, zero]
  have attempts : (if res.incrementAttempt = true then d.attemptCount + 1 else d.attemptCount) =
      d.attemptCount + if res.incrementAttempt = true then 1 else 0 := by
    split <;> simp
  have firstOpened : truncateTime d.firstOpenedAt = d.firstOpenedAt := congrArg Delivery.firstOpenedAt written
  have firstClicked : truncateTime d.firstClickedAt = d.firstClickedAt := congrArg Delivery.firstClickedAt written
  have unsubscribed : truncateTime d.unsubscribedAt = d.unsubscribedAt := congrArg Delivery.unsubscribedAt written
  have created : truncateTime d.createdAt = d.createdAt := congrArg Delivery.createdAt written
  simp only [applyResult, truncateDelivery, completeRow, nextAttempt, attempts, firstOpened, firstClicked,
    unsubscribed, created, whole, truncateTime_zero, keeps _ d.sentAt (congrArg Delivery.sentAt written),
    keeps _ d.finishedAt (congrArg Delivery.finishedAt written)]

/-- A result writes to the delivery what another one writes in memory. -/
structure SameWrite (d : Delivery) (res first : DeliveryResult) : Prop where
  status : res.newStatus = first.newStatus
  errorClass : res.errorClass = first.errorClass
  code : smtpCode res.smtpCode = first.smtpCode
  error : res.error = first.error
  messageID : (if res.messageID ≠ [] then res.messageID else d.messageID) =
    if first.messageID ≠ [] then first.messageID else d.messageID
  increment : res.incrementAttempt = first.incrementAttempt
  nextAttempt : (tsIn res.nextAttemptAt).getD d.nextAttemptAt = (tsIn first.nextAttemptAt).getD d.nextAttemptAt

theorem completeRow_eq (written : Written d) (whole : truncateTime now = now) (same : SameWrite d res first) :
    completeRow now res d = applyResult now first d := by
  rw [applyResult_eq written whole]
  simp only [completeRow, same.status, same.errorClass, same.code, same.error, same.messageID, same.increment,
    same.nextAttempt]

theorem decidingResult_eq_head {repo : DeliveryRepo} {id : Text} (stored : repo.deliveries[id]? = some d) :
    repo.decidingResult results id = (joined results id d).head? := by
  rw [decidingResult, ← head?_filter]
  congr 1
  apply filter_congr
  intro res _
  by_cases named : res.deliveryID = id
  · subst named
    simp [holdsLease, stored]
  · simp [named]

def firstChoice : Choice where
  pick _ results := results.head?
  pick_mem _ _ _ := List.mem_of_mem_head?
  pick_some _ results some := by
    cases results with
    | nil => exact absurd rfl some
    | cons first rest => rfl

section Agreement

variable {repo : DeliveryRepo} {tenant : Text} {now clock : Time} {newID : Nat → Text} {results : List DeliveryResult}

theorem completeStatement_get (id : Text) :
    (completeStatement choice now results repo.deliveries)[id]? = repo.deliveries[id]?.map fun d =>
      ((choice.pick id (joined results id d)).map fun res => completeRow now res d).getD d :=
  Std.ExtTreeMap.getElem?_map

/-- The results that hold the lease of a delivery write the same to it. -/
def RowsAgree (repo : DeliveryRepo) (results : List DeliveryResult) : Prop :=
  ∀ (id : Text) d, repo.deliveries[id]? = some d → ∀ res ∈ joined results id d, ∀ first ∈ (joined results id d).head?,
    SameWrite d res first

variable {d : Delivery}

theorem completeFrom_row {id : Text} (stored : repo.deliveries[id]? = some d) :
    (completeFrom now newID 0 results repo).deliveries[id]? =
      some (((joined results id d).head?.map fun first => applyResult now first d).getD d) := by
  rw [completeFrom_get, decidingResult_eq_head stored]
  cases (joined results id d).head? <;> simp [stored]

theorem picked_row (choice : Choice) {id : Text} (written : Written d) (whole : truncateTime now = now)
    (agree : ∀ res ∈ joined results id d, ∀ first ∈ (joined results id d).head?, SameWrite d res first) :
    ((choice.pick id (joined results id d)).map fun res => completeRow now res d).getD d =
      ((joined results id d).head?.map fun first => applyResult now first d).getD d := by
  cases picked : choice.pick id (joined results id d) with
  | none =>
      have empty : joined results id d = [] := by
        by_contra some
        have chosen := choice.pick_some id _ some
        rw [picked] at chosen
        cases chosen
      simp [empty]
  | some res =>
      have member := choice.pick_mem id _ res picked
      cases head : (joined results id d).head? with
      | none =>
          rw [head?_eq_none_iff.mp head] at member
          cases member
      | some first => exact completeRow_eq written whole (agree res member first head)

theorem deliveries_agree (newID : Nat → Text)
    (written : ∀ (id : Text) d, repo.deliveries[id]? = some d → Written d) (whole : truncateTime now = now)
    (rows : RowsAgree repo results) (choice : Choice) :
    completeStatement choice now results repo.deliveries = (completeFrom now newID 0 results repo).deliveries := by
  apply Std.ExtTreeMap.ext_getElem?
  intro id
  rw [completeStatement_get]
  cases stored : repo.deliveries[id]? with
  | none =>
      rw [completeFrom_get, stored]
      split <;> rfl
  | some d =>
      rw [completeFrom_row stored, Option.map_some, Option.some.injEq]
      exact picked_row choice (written id d stored) whole (rows id d stored)

/-- Some result of the batch holds the lease of the delivery. -/
def Updated (repo : DeliveryRepo) (results : List DeliveryResult) (id : Text) : Prop :=
  ∃ res ∈ results, res.deliveryID = id ∧ repo.holdsLease res = true

instance (id : Text) : Decidable (Updated repo results id) :=
  inferInstanceAs (Decidable (∃ res ∈ results, _))

theorem applied_iff {id : Text} : applied results repo.deliveries id = true ↔ Updated repo results id := by
  have holding : applied results repo.deliveries id = true ↔ ∃ d, repo.deliveries[id]? = some d ∧
      ∃ res ∈ results, res.deliveryID = id ∧ res.leaseOwner ≠ [] ∧ d.leaseOwner = res.leaseOwner := by
    simp [applied, joined, Option.any_eq_true]
  rw [holding]
  constructor
  · rintro ⟨d, stored, res, member, rfl, owns⟩
    exact ⟨res, member, rfl, holdsLease_iff.mpr ⟨d, stored, owns⟩⟩
  · rintro ⟨res, member, rfl, held⟩
    obtain ⟨d, stored, owns⟩ := holdsLease_iff.mp held
    exact ⟨d, stored, res, member, rfl, owns⟩

/-- The IDs of the attempts that a batch carries, in turn. -/
def attemptIDs (newID : Nat → Text) : Nat → List DeliveryResult → List Text
  | _, [] => []
  | index, res :: rest =>
      (res.attempt.map fun a => if a.id = [] then newID index else a.id).toList ++ attemptIDs newID (index + 1) rest

/-- What makes a batch come out the same: the results that hold the lease of a
delivery write the same to it, of the results for a delivery that is updated only
the first that holds its lease carries an attempt, and the attempts have new IDs of
their own and fit into one statement. -/
structure Regular (repo : DeliveryRepo) (newID : Nat → Text) (results : List DeliveryResult) : Prop where
  writes : RowsAgree repo results
  deciding : ∀ index < results.length, ∀ res ∈ results[index]?, res.attempt.isSome = true →
    Updated repo results res.deliveryID →
    repo.holdsLease res = true ∧ ¬ Updated repo (results.take index) res.deliveryID
  distinct : (attemptIDs newID 0 results).Nodup
  fresh : ∀ id ∈ attemptIDs newID 0 results, repo.attempts[id]? = none
  few : (attemptIDs newID 0 results).length ≤ 5041

theorem attemptRows_ids (index : Nat) :
    ((attemptRows tenant now newID done index results).map fun a => a.id).Sublist (attemptIDs newID index results) := by
  induction results generalizing index with
  | nil => exact .slnil
  | cons res rest ih =>
      unfold attemptRows attemptIDs
      cases attempt : res.attempt with
      | none => exact ih (index + 1)
      | some a =>
          dsimp only
          split
          · exact (ih (index + 1)).cons_cons _
          · exact (ih (index + 1)).cons _

theorem attemptValues_eq (a : DeliveryAttempt) (newID deliveryID : Text) :
    attemptValues tenant now newID { a with deliveryID } = stampAttempt tenant now newID deliveryID a := by
  simp only [attemptValues, stampAttempt, truncateAttempt, tsOut_tsIn, tsInNN]

/-- A result that is applied takes the lease from the others. -/
theorem holdsLease_completeOne (newID : Text) (head res : DeliveryResult) :
    (repo.completeOne now newID head).holdsLease res = true ↔
      repo.holdsLease res = true ∧ ¬ (head.deliveryID = res.deliveryID ∧ repo.holdsLease head = true) := by
  have step := repo.completeOne_get now newID head res.deliveryID
  by_cases taken : repo.holdsLease head = true ∧ head.deliveryID = res.deliveryID
  · rw [if_pos taken] at step
    simp only [taken, and_self, not_true_eq_false, and_false, iff_false]
    intro held
    obtain ⟨row, stored, named, owner⟩ := holdsLease_iff.mp held
    rw [step] at stored
    obtain ⟨d, -, rfl⟩ := Option.map_eq_some_iff.mp stored
    exact named owner.symm
  · rw [if_neg taken] at step
    rw [holdsLease_of_get step]
    exact ⟨fun held => ⟨held, fun both => taken both.symm⟩, fun both => both.1⟩

theorem completeOne_tenant (newID : Text) : (repo.completeOne now newID res).tenant = repo.tenant := by
  unfold completeOne
  split <;> rfl

/-- The results whose attempts are inserted are those whose turn it is. -/
theorem attemptRows_eq_recorded (index : Nat) (turn : ∀ earlier res later, results = earlier ++ res :: later →
      res.attempt.isSome = true → (done res.deliveryID = true ↔
        repo.holdsLease res = true ∧ ¬ Updated repo earlier res.deliveryID)) :
    attemptRows repo.tenant now newID done index results = recordedAttempts now newID index results repo := by
  induction results generalizing index repo with
  | nil => rfl
  | cons head rest ih =>
      have later : attemptRows repo.tenant now newID done (index + 1) rest =
          recordedAttempts now newID (index + 1) rest (repo.completeOne now (newID index) head) := by
        rw [← completeOne_tenant (newID index)]
        refine ih (index + 1) fun earlier res later split attempted => ?_
        rw [turn (head :: earlier) res later (by rw [split]; rfl) attempted]
        simp only [Updated, holdsLease_completeOne, mem_cons]
        grind
      have first := turn [] head rest rfl
      unfold attemptRows recordedAttempts
      rw [later]
      cases attempt : head.attempt with
      | none => simp
      | some a =>
          have mine := first (by simp [attempt])
          simp only [Updated, not_mem_nil, false_and, exists_false, not_false_eq_true, and_true] at mine
          simp only [mine, attemptValues_eq, Option.map_some, Option.toList_some, singleton_append]

def tablesOf (repo : DeliveryRepo) : QueueTables where
  tenant := repo.tenant
  deliveries := repo.deliveries
  attempts := repo.attempts

/-- Whatever the database chooses, the tables are those of the repository. -/
def CompletesAlike (repo : DeliveryRepo) (clock : Time) (newID : Nat → Text) (results : List DeliveryResult) : Prop :=
  ∀ choice, complete choice clock newID results (tablesOf repo) = some (tablesOf (repo.complete clock newID results))

theorem completeFrom_tenant (index : Nat) : (completeFrom now newID index results repo).tenant = repo.tenant := by
  induction results generalizing index repo with
  | nil => rfl
  | cons res rest ih => rw [completeFrom, ih, completeOne_tenant]

theorem Regular.turn (regular : Regular repo newID results) (split : results = earlier ++ res :: later)
    (attempted : res.attempt.isSome = true) : applied results repo.deliveries res.deliveryID = true ↔
      repo.holdsLease res = true ∧ ¬ Updated repo earlier res.deliveryID := by
  rw [applied_iff]
  constructor
  · intro updated
    have decides := regular.deciding earlier.length (by simp [split]) res (by simp [split]) attempted updated
    rwa [split, take_left] at decides
  · intro first
    exact ⟨res, by simp [split], rfl, first.1⟩

theorem rowsAgree_of_distinct (named : ((results.filter repo.holdsLease).map fun res => res.deliveryID).Nodup)
    (codes : ∀ res ∈ results, smtpCode res.smtpCode = res.smtpCode) : RowsAgree repo results := by
  have holding : ∀ {id d res}, repo.deliveries[id]? = some d → res ∈ joined results id d →
      res ∈ results.filter repo.holdsLease ∧ res.deliveryID = id := by
    intro id d res stored member
    simp only [joined, mem_filter, Bool.and_eq_true, decide_eq_true_eq] at member
    obtain ⟨inside, rfl, owns⟩ := member
    exact ⟨mem_filter.mpr ⟨inside, holdsLease_iff.mpr ⟨d, stored, owns⟩⟩, rfl⟩
  intro id d stored res member first head
  have mine := holding stored member
  have other := holding stored (mem_of_mem_head? head)
  obtain rfl := inj_on_of_nodup_map named mine.1 other.1 (mine.2.trans other.2.symm)
  exact ⟨rfl, rfl, codes res (mem_filter.mp mine.1).1, rfl, rfl, rfl, rfl⟩

end Agreement

def heldByBoth : DeliveryRepo where
  deliveries := ((∅ : Table Text Delivery).insert (text "d1")
    { id := text "d1", status := .leased, leaseOwner := text "w1", leaseUntil := 1000000 }).insert (text "d2")
    { id := text "d2", status := .leased, leaseOwner := text "w2", leaseUntil := 1000000 }

def report (id owner : Text) (status : DeliveryStatus) (attempt : Option DeliveryAttempt) : DeliveryResult where
  deliveryID := id
  leaseOwner := owner
  newStatus := status
  attempt := attempt

def numbered (index : Nat) : Text := [UInt8.ofNat (97 + index)]

end Sendplane.Postgres
