import Sendplane.Api.Messages

namespace Sendplane.Api

open Data Data.Strings Store Memstore Prog DeliveryRepo TenantStore List

namespace MessageServer

variable (srv : MessageServer) (tenantID : Text)

def addresses (recipients : List MessageRecipient) : Option (List Text) :=
  recipients.mapM fun r => (srv.normalizeEmail r.email).toOption

def entry (item : MessageResultItem) : Text × Text :=
  ((srv.normalizeEmail item.email).toOption.getD [], item.deliveryID)

def listing (result : MessageResult) : List (Text × Text) :=
  result.deliveries.map srv.entry

/-- The deliveries that the key stands for when these addresses are named. -/
def derived (key : Text) : Nat → List Text → List (Text × Text)
  | _, [] => []
  | index, norm :: rest =>
      (norm, srv.transactionalID tenantID key norm index []) :: derived key (index + 1) rest

theorem derived_addresses (index : Nat) : (srv.derived tenantID key index norms).map Prod.fst = norms := by
  induction norms generalizing index with
  | nil => rfl
  | cons norm rest ih => simp [derived, ih]

theorem transactionalID_named (named : key ≠ []) (norm : Text) (index : Nat) :
    srv.transactionalID tenantID key norm index newID = srv.transactionalID tenantID key norm index [] := by
  simp [transactionalID, named]

theorem transactionalID_ne_nil (named : key ≠ []) (norm : Text) (index : Nat) :
    srv.transactionalID tenantID key norm index newID ≠ [] := by
  rw [transactionalID, if_neg named]
  exact Uuid.ofHash_ne_nil _

theorem derived_named (named : key ≠ []) {index : Nat} (member : pair ∈ srv.derived tenantID key index norms) :
    pair.2 ≠ [] := by
  induction norms generalizing index with
  | nil => simp [derived] at member
  | cons norm rest ih =>
      rcases mem_cons.mp member with rfl | later
      · exact srv.transactionalID_ne_nil tenantID named _ _
      · exact ih later

end MessageServer

def keyRow (key : Text) (s : TenantStore) : Option RecipientChunk :=
  s.chunks[TenantStore.chunkKey msgChunkCampaign (msgChunkPrefix ++ key)]?

def Completed (key : Text) (s : TenantStore) : Prop :=
  ∃ row, keyRow key s = some row ∧ row.state = .completed

def StoredDelivery (s : TenantStore) (id : Text) : Prop :=
  (s.deliveries[id]?).isSome = true

/-- What the rest of the system leaves alone. -/
structure Keeps (key : Text) (before after : TenantStore) : Prop where
  deliveries : ∀ id, StoredDelivery before id → StoredDelivery after id
  chunk : keyRow key after = keyRow key before

theorem Keeps.refl (key : Text) (s : TenantStore) : Keeps key s s :=
  ⟨fun _ => id, rfl⟩

variable {key : Text}

theorem Keeps.trans (early : Keeps key first second) (late : Keeps key second third) : Keeps key first third :=
  ⟨fun id stored => late.deliveries id (early.deliveries id stored), late.chunk.trans early.chunk⟩

namespace MessageServer

variable {srv : MessageServer} {tenantID key : Text} {after : TenantStore} {trace : Prog.Trace MessageCall}
  {reply : Except Err Bool}

theorem keyCompleted_ends (named : key ≠ []) (ends : (keyCompleted key).Ends (fun _ => Outage) s trace reply after) :
    after = s ∧ ∀ done, reply = .ok done → (done = true ↔ Completed key s) := by
  rw [keyCompleted, if_neg named] at ends
  obtain ⟨later, ⟨rfl, answered⟩ | ⟨rfl, failure, outage, failed⟩⟩ := ends_query ends
  · cases stored : s.chunks[chunkKey msgChunkCampaign (msgChunkPrefix ++ key)]? with
    | none =>
        simp only [chunkGet, stored, Err.wrap, ne_eq, not_true_eq_false] at answered
        obtain ⟨-, rfl, rfl⟩ := answered
        refine ⟨rfl, fun done same => ?_⟩
        cases same
        simp [Completed, keyRow, stored]
    | some row =>
        simp only [chunkGet, stored] at answered
        obtain ⟨-, rfl, rfl⟩ := answered
        refine ⟨rfl, fun done same => ?_⟩
        cases same
        simp [Completed, keyRow, stored]
  · have refused : failure.kind ≠ .notFound := outage.ne (by decide)
    dsimp only at failed
    rw [if_pos refused] at failed
    exact ends_error failed

variable {settings : TenantSettings} {norm : Text}

theorem suppressed_ends (ends : (suppressed req settings norm).Ends (fun _ => Outage) s trace reply after) :
    after = s := by
  unfold suppressed at ends
  split at ends
  · obtain ⟨later, ⟨rfl, -, -, unchanged⟩ | ⟨rfl, failure, -, -, -, unchanged⟩⟩ := ends
    · exact unchanged
    · exact unchanged
  · exact ends.2.2

/-- The rows are those of the recipients, under the IDs derived from the key. -/
structure RowsFor (srv : MessageServer) (tenantID key : Text) (index : Nat)
    (recipients : List MessageRecipient) (ds : List Delivery) : Prop where
  valid : ∃ norms, srv.addresses recipients = some norms ∧
    ds.map (fun d => (d.emailNorm, d.id)) = srv.derived tenantID key index norms
  normalized : ∀ d ∈ ds, srv.normalizeEmail d.email = .ok d.emailNorm
  transactional : ∀ d ∈ ds, d.campaignID = []

variable {index : Nat} {recipients : List MessageRecipient}

theorem RowsFor.listing (rows : RowsFor srv tenantID key index recipients ds) :
    (ds.map resultItem).map srv.entry = ds.map fun d => (d.emailNorm, d.id) := by
  rw [map_map]
  apply map_congr_left
  intro d member
  simp [entry, resultItem, rows.normalized d member, Except.toOption]

theorem addresses_cons (first : srv.normalizeEmail r.email = .ok norm) (others : srv.addresses rest = some norms) :
    srv.addresses (r :: rest) = some (norm :: norms) := by
  have valid : (srv.normalizeEmail r.email).toOption = some norm := by rw [first]; rfl
  rw [addresses] at others
  simp [addresses, valid, others]

theorem deliveriesFor_ends (named : key ≠ []) {reply : Except Failure (List Delivery)}
    (ends : (srv.deliveriesFor tenantID req key resolved settings index seen recipients).Ends
      (fun _ => Outage) s trace reply after) :
    after = s ∧ ∀ ds, reply = .ok ds → RowsFor srv tenantID key index recipients ds := by
  induction recipients generalizing index seen trace reply after with
  | nil =>
      obtain ⟨-, rfl, rfl⟩ := ends
      refine ⟨rfl, fun ds same => ?_⟩
      cases same
      exact ⟨⟨[], rfl, rfl⟩, by simp, by simp⟩
  | cons r rest ih =>
      rw [deliveriesFor] at ends
      cases first : srv.normalizeEmail r.email with
      | error e =>
          simp only [first] at ends
          exact ends_error ends
      | ok norm =>
          simp only [first] at ends
          split at ends
          · exact ends_error ends
          split at ends
          · exact ends_error ends
          obtain ⟨head, tail, looked, middle, rfl, checked, ends⟩ := ends_bind ends
          obtain rfl := suppressed_ends checked
          cases looked with
          | error e =>
              exact ends_error ends
          | ok listed =>
              obtain ⟨body, last, later, middle, rfl, rest, ends⟩ := ends_bind ends
              obtain ⟨rfl, others⟩ := ih rest
              cases later with
              | error e =>
                  exact ends_error ends
              | ok later =>
                  obtain ⟨-, rfl, rfl⟩ := ends
                  refine ⟨rfl, fun ds same => ?_⟩
                  cases same
                  obtain ⟨⟨norms, valid, derived⟩, normalized, transactional⟩ := others later rfl
                  refine ⟨⟨norm :: norms, addresses_cons first valid, ?_⟩, ?_, ?_⟩
                  · simp only [map_cons, derived, MessageServer.derived, newDelivery]
                    rw [transactionalID_named _ _ named]
                  · exact forall_mem_cons.mpr ⟨first, normalized⟩
                  · exact forall_mem_cons.mpr ⟨rfl, transactional⟩

def prepend (item : MessageResultItem) :
    Except Failure (Text × List MessageResultItem) → MessageProc (Except Failure (Text × List MessageResultItem))
  | .error e => return .error e
  | .ok (versionID, items) => return .ok (versionID, item :: items)

theorem replayItems_ends (named : key ≠ []) {reply : Except Failure (Text × List MessageResultItem)}
    (ends : (srv.replayItems tenantID req key index versionID recipients).Ends (fun _ => Outage) s trace reply after) :
    after = s ∧ ∀ answer, reply = .ok answer → ∃ norms, srv.addresses recipients = some norms ∧
      answer.2.map srv.entry = srv.derived tenantID key index norms := by
  induction recipients generalizing index versionID trace reply after with
  | nil =>
      obtain ⟨-, rfl, rfl⟩ := ends
      refine ⟨rfl, fun answer same => ?_⟩
      cases same
      exact ⟨[], rfl, rfl⟩
  | cons r rest ih =>
      rw [replayItems] at ends
      cases first : srv.normalizeEmail r.email with
      | error e =>
          simp only [first] at ends
          exact ends_error ends
      | ok norm =>
          simp only [first] at ends
          -- Whatever the row says, the item carries the derived ID.
          have added : ∀ (status : DeliveryStatus) (version : Text) {trace : Trace MessageCall},
              (srv.replayItems tenantID req key (index + 1) version rest >>= prepend
                ⟨srv.transactionalID tenantID key norm index (req.newID index), r.email, status⟩).Ends
                  (fun _ => Outage) s trace reply after →
              after = s ∧ ∀ answer, reply = .ok answer → ∃ norms, srv.addresses (r :: rest) = some norms ∧
                answer.2.map srv.entry = srv.derived tenantID key index norms := by
            intro status version trace ends
            obtain ⟨head, tail, later, middle, rfl, others, ends⟩ := ends_bind ends
            obtain ⟨rfl, listed⟩ := ih others
            cases later with
            | error e =>
                exact ends_error ends
            | ok later =>
                obtain ⟨-, rfl, rfl⟩ := ends
                refine ⟨rfl, fun answer same => ?_⟩
                cases same
                obtain ⟨norms, valid, derived⟩ := listed later rfl
                refine ⟨norm :: norms, addresses_cons first valid, ?_⟩
                simp only [map_cons, derived, MessageServer.derived, entry, first, Except.toOption, Option.getD_some]
                rw [transactionalID_named _ _ named]
          obtain ⟨later, ⟨rfl, answered⟩ | ⟨rfl, failure, outage, failed⟩⟩ := ends_query ends
          · cases stored : s.deliveries[srv.transactionalID tenantID key norm index (req.newID index)]? with
            | some d =>
                simp only [deliveryGet, DeliveryRepo.get, stored] at answered
                exact added d.status d.versionID answered
            | none =>
                simp only [deliveryGet, DeliveryRepo.get, stored, Err.wrap, ne_eq, not_true_eq_false] at answered
                exact added .queued versionID answered
          · have refused : failure.kind ≠ .notFound := outage.ne (by decide)
            dsimp only at failed
            rw [if_pos refused] at failed
            exact ends_error failed

theorem recordKey_ends (named : key ≠ []) {accepted : Nat} {reply : Except Err Unit}
    (ends : (recordKey req key accepted).Ends (fun _ => Outage) s trace reply after) :
    after.deliveries = s.deliveries ∧
      ((∃ e, reply = .error e ∧ after = s) ∨ (reply = .ok () ∧ Completed key after)) := by
  rw [recordKey, if_neg named] at ends
  have prefixed : msgChunkPrefix ++ key ≠ [] := by simp [named]
  have campaign : msgChunkCampaign ≠ [] := by decide
  rcases ends_once ends with ⟨rfl, rfl⟩ | ⟨-, rfl, failure, -, rfl⟩
  · simp only [chunkPut, campaign, prefixed, or_self, ↓reduceIte]
    refine ⟨trivial, .inr ⟨trivial, ?_⟩⟩
    rw [Completed, keyRow, Table.get_insert_same]
    exact ⟨_, rfl, rfl⟩
  · exact ⟨rfl, .inl ⟨failure, rfl, rfl⟩⟩

/-- What a call that got past the chunk has done when it returns. -/
inductive Outcome (srv : MessageServer) (tenantID key : Text) (recipients : List MessageRecipient)
    (before after : TenantStore) : Except Failure MessageResult → Prop where
  | refused (failure : Failure) (keeps : Keeps key before after) :
      Outcome srv tenantID key recipients before after (.error failure)
  | replayed (result : MessageResult) (norms : List Text) (completed : Completed key before)
      (unchanged : after = before) (valid : srv.addresses recipients = some norms)
      (listed : srv.listing result = srv.derived tenantID key 0 norms) :
      Outcome srv tenantID key recipients before after (.ok result)
  | accepted (result : MessageResult) (norms : List Text) (first : ¬Completed key before)
      (completed : Completed key after) (kept : ∀ id, StoredDelivery before id → StoredDelivery after id)
      (valid : srv.addresses recipients = some norms)
      (listed : srv.listing result = srv.derived tenantID key 0 norms)
      (stored : ∀ pair ∈ srv.listing result, StoredDelivery after pair.2) :
      Outcome srv tenantID key recipients before after (.ok result)

variable {reply : Except Failure MessageResult}

theorem replayMessage_ends (named : key ≠ []) (completed : Completed key s)
    (ends : (srv.replayMessage tenantID req key versionID).Ends (fun _ => Outage) s trace reply after) :
    Outcome srv tenantID key req.recipients s after reply := by
  obtain ⟨head, tail, items, middle, rfl, looped, ends⟩ := ends_bind ends
  obtain ⟨rfl, listed⟩ := replayItems_ends named looped
  cases items with
  | error e =>
      obtain ⟨-, rfl, rfl⟩ := ends
      exact .refused e (.refl _ _)
  | ok answer =>
      obtain ⟨-, rfl, rfl⟩ := ends
      obtain ⟨norms, valid, derived⟩ := listed answer rfl
      exact .replayed _ norms completed rfl valid derived

theorem insertBatch_stores (key : Text) (transactional : ∀ d ∈ ds, d.campaignID = [] ∧ d.id ≠ []) :
    Keeps key s (s.deliveryInsertBatch newID ds).2 ∧ ∀ inserted, (s.deliveryInsertBatch newID ds).1 = .ok inserted →
        ∀ d ∈ ds, StoredDelivery (s.deliveryInsertBatch newID ds).2 d.id := by
  simp only [deliveryInsertBatch, insertBatch]
  cases ds.findIdx? fun d => d.emailNorm = [] with
  | some index => exact ⟨.refl _ _, fun inserted same => by cases same⟩
  | none =>
      refine ⟨⟨fun id stored => ?_, rfl⟩, fun _ _ d member => ?_⟩
      · exact insertRows_stored stored
      · apply insertRows_get_of_mem
        rw [accepted_of_transactional transactional]
        exact mem_map_of_mem member

theorem acceptMessage_ends (named : key ≠ []) (first : ¬Completed key s)
    (ends : (srv.acceptMessage tenantID req key resolved).Ends (fun _ => Outage) s trace reply after) :
    Outcome srv tenantID key req.recipients s after reply := by
  obtain ⟨head, tail, settings, loaded, rfl, loading, ends⟩ := ends_bind ends
  have settled : Keeps key s loaded := by
    obtain ⟨-, ⟨e, -, rfl⟩ | ⟨v, -, -, rfl⟩ | ⟨v, -, absent, created⟩⟩ := loadTenantSettings_ends loading
    · exact .refl _ _
    · exact .refl _ _
    · obtain ⟨row, stored, same, -⟩ :=
        settingsCreate_absent (defaultTenantSettings tenantID req.newKey req.settingsAt) absent
      rw [same] at created
      cases created
      exact ⟨fun _ => id, rfl⟩
  cases settings with
  | error e =>
      obtain ⟨-, rfl, rfl⟩ := ends
      exact .refused _ settled
  | ok settings =>
  obtain ⟨head, tail, rows, middle, rfl, looped, ends⟩ := ends_bind ends
  obtain ⟨rfl, rowsFor⟩ := deliveriesFor_ends named looped
  cases rows with
  | error e =>
      obtain ⟨-, rfl, rfl⟩ := ends
      exact .refused _ settled
  | ok ds =>
  obtain ⟨⟨norms, valid, derived⟩, normalized, transactional⟩ := rowsFor ds rfl
  have identified : ∀ d ∈ ds, d.campaignID = [] ∧ d.id ≠ [] := by
    intro d member
    refine ⟨transactional d member, ?_⟩
    have inside := derived ▸ mem_map_of_mem member
    exact srv.derived_named tenantID named inside
  obtain ⟨later, ⟨rfl, answered⟩ | ⟨rfl, failure, outage, failed⟩⟩ := ends_invoke ends
  · obtain ⟨kept, written⟩ := insertBatch_stores key identified
    generalize middle.deliveryInsertBatch req.newID ds = inserted at answered kept written
    obtain ⟨inserted, next⟩ := inserted
    cases inserted with
    | error e =>
        obtain ⟨-, rfl, rfl⟩ := answered
        exact .refused _ (settled.trans kept)
    | ok count =>
        obtain ⟨head, tail, recorded, last, rfl, recording, finished⟩ := ends_bind answered
        obtain ⟨same, ⟨e, rfl, rfl⟩ | ⟨rfl, completed⟩⟩ := recordKey_ends named recording
        · obtain ⟨-, rfl, rfl⟩ := finished
          exact .refused _ (settled.trans kept)
        · obtain ⟨-, rfl, rfl⟩ := finished
          have listed := (RowsFor.listing ⟨⟨norms, valid, derived⟩, normalized, transactional⟩).trans derived
          refine .accepted _ norms first completed (fun id held => ?_) valid listed ?_
          · rw [StoredDelivery, same]
            exact (settled.trans kept).deliveries id held
          · intro pair member
            have inside : pair ∈ ds.map fun d => (d.emailNorm, d.id) := by
              rw [derived, ← listed]
              exact member
            obtain ⟨d, row, rfl⟩ := mem_map.mp inside
            rw [StoredDelivery, same]
            exact written count rfl d row
  · obtain ⟨-, rfl, rfl⟩ := failed
    exact .refused _ settled

theorem sendMessage_ends (keyed : trimSpace req.idempotencyKey = key) (named : key ≠ [])
    (ends : (srv.sendMessage tenantID req).Ends (fun _ => Outage) s trace reply after) :
    Outcome srv tenantID key req.recipients s after reply := by
  have refused : ∀ (failure : Failure) {trace : Trace MessageCall},
      (done (.error failure) : MessageProc (Except Failure MessageResult)).Ends (fun _ => Outage)
        s trace reply after → Outcome srv tenantID key req.recipients s after reply := by
    rintro failure trace ⟨-, rfl, rfl⟩
    exact .refused _ (.refl _ _)
  unfold sendMessage at ends
  split at ends
  · exact refused _ ends
  split at ends
  · exact refused _ ends
  split at ends
  · exact refused _ ends
  split at ends
  · exact refused _ ends
  obtain ⟨later, ⟨rfl, answered⟩ | ⟨rfl, failure, outage, failed⟩⟩ := ends_query ends
  · cases resolved : req.resolve s with
    | error e =>
        simp only [resolved] at answered
        exact refused _ answered
    | ok resolved' =>
        simp only [resolved, keyed] at answered
        obtain ⟨head, tail, done, middle, rfl, looked, answered⟩ := ends_bind answered
        obtain ⟨rfl, known⟩ := keyCompleted_ends named looked
        cases done with
        | error e => exact refused _ answered
        | ok done =>
            cases done with
            | true => exact replayMessage_ends named ((known true rfl).mp rfl) answered
            | false =>
                apply acceptMessage_ends named _ answered
                intro completed
                cases (known false rfl).mpr completed
  · exact refused _ failed

end MessageServer

/-- The calls of one tenant with one key, and what they have answered. -/
structure KeyRun where
  store : TenantStore
  /-- What the calls answered with 202 have listed, the first one first. -/
  answers : List (List (Text × Text)) := []
  deleted : List Text := []

inductive KeyStep where
  | post (req : MessageRequest) (failures : List (Option Err))
  | retention (ids : List Text)
  /-- Anything else the system does: it keeps the deliveries and leaves the
  chunk of this key alone. -/
  | elsewhere (next : TenantStore)

def retains (key : Text) (before after : TenantStore) : Bool :=
  keyRow key after = keyRow key before &&
    before.deliveries.toList.all fun row => (after.deliveries[row.1]?).isSome

theorem retains_keeps {before after : TenantStore} (retained : retains key before after = true) :
    Keeps key before after := by
  simp only [retains, Bool.and_eq_true, decide_eq_true_eq, all_eq_true] at retained
  refine ⟨fun id stored => ?_, retained.1⟩
  obtain ⟨d, found⟩ := Option.isSome_iff_exists.mp stored
  exact retained.2 (id, d) (Table.mem_toList.mpr found)

/-- Any store call of a POST may fail; the rest of the system comes between two of them. -/
def keySystem (srv : MessageServer) (tenantID key : Text) : System KeyRun KeyStep where
  step
    | run, .post req failures =>
        if trimSpace req.idempotencyKey = key ∧ ∀ failure ∈ failures, ∀ e ∈ failure, e.kind = .other then
          let (reply, store) := (srv.sendMessage tenantID req).run (fun n => failures[n]?.join) run.store
          let answered := match reply with
            | .ok result => [srv.listing result]
            | .error _ => []
          some { run with store, answers := run.answers ++ answered }
        else none
    | run, .retention ids =>
        some { run with
          store := { run.store with deliveries := run.store.deliveries.eraseAll ids }
          deleted := run.deleted ++ ids }
    | run, .elsewhere next => if retains key run.store next then some { run with store := next } else none

/-- Every answer lists what the first one listed, and all of it is stored unless
retention has deleted it. -/
def Consistent (run : KeyRun) : Prop :=
  ∀ first ∈ run.answers.head?, ∀ listing ∈ run.answers, listing = first ∧
    ∀ pair ∈ listing, StoredDelivery run.store pair.2 ∨ pair.2 ∈ run.deleted

/-- Once the key was answered, a call with it names the same addresses in the
same order. -/
def SameAddresses (srv : MessageServer) (run : KeyRun) : KeyStep → Prop
  | .post req _ => ∀ first ∈ run.answers.head?, ∀ norms ∈ srv.addresses req.recipients, norms = first.map Prod.fst
  | _ => True

structure KeyInvariant (srv : MessageServer) (tenantID key : Text) (run : KeyRun) : Prop where
  completed : Completed key run.store ↔ run.answers ≠ []
  derived : ∀ listing ∈ run.answers, ∃ norms, listing = srv.derived tenantID key 0 norms
  consistent : Consistent run

section

variable {srv : MessageServer} {tenantID key : Text}

def answeredListing (srv : MessageServer) : Except Failure MessageResult → List (List (Text × Text))
  | .ok result => [srv.listing result]
  | .error _ => []

variable {run next : KeyRun} {req : MessageRequest} {failures : List (Option Err)}

theorem post_outcome (named : key ≠ [])
    (stepped : (keySystem srv tenantID key).step run (.post req failures) = some next) :
    ∃ reply, MessageServer.Outcome srv tenantID key req.recipients run.store next.store reply ∧
      next.answers = run.answers ++ answeredListing srv reply ∧ next.deleted = run.deleted := by
  simp only [keySystem] at stepped
  split at stepped
  · rename_i legal
    cases stepped
    have outages : ∀ n : Nat, ∀ e ∈ failures[n]?.join, ∀ _ : MessageCall, Outage e := by
      intro n e planned _
      have found := Option.join_eq_some_iff.mp planned
      exact legal.2 _ (mem_of_getElem? found) e rfl
    refine ⟨_, MessageServer.sendMessage_ends legal.1 named (ends_run outages _ run.store), ?_, rfl⟩
    cases ((srv.sendMessage tenantID req).run (fun n => failures[n]?.join) run.store).1 <;> rfl
  · cases stepped

theorem Consistent.later (consistent : Consistent run) (answers : next.answers = run.answers)
    (kept : ∀ id, StoredDelivery run.store id ∨ id ∈ run.deleted →
      StoredDelivery next.store id ∨ id ∈ next.deleted) : Consistent next := by
  intro first head listing member
  rw [answers] at head member
  obtain ⟨same, stored⟩ := consistent first head listing member
  exact ⟨same, fun pair inside => kept pair.2 (stored pair inside)⟩

theorem KeyInvariant.quiet (invariant : KeyInvariant srv tenantID key run) (answers : next.answers = run.answers)
    (chunk : keyRow key next.store = keyRow key run.store)
    (kept : ∀ id, StoredDelivery run.store id ∨ id ∈ run.deleted →
      StoredDelivery next.store id ∨ id ∈ next.deleted) : KeyInvariant srv tenantID key next where
  completed := by
    rw [Completed, chunk, answers]
    exact invariant.completed
  derived := by
    rw [answers]
    exact invariant.derived
  consistent := invariant.consistent.later answers kept

theorem replayed_consistent_iff (invariant : KeyInvariant srv tenantID key run) (answered : run.answers ≠ [])
    (store : next.store = run.store) (deleted : next.deleted = run.deleted)
    (answers : next.answers = run.answers ++ [srv.derived tenantID key 0 norms]) :
    Consistent next ↔ ∀ first ∈ run.answers.head?, norms = first.map Prod.fst := by
  obtain ⟨first, rest, started⟩ := exists_cons_of_ne_nil answered
  obtain ⟨original, listed⟩ := invariant.derived first (by simp [started])
  have named : first.map Prod.fst = original := by rw [listed, srv.derived_addresses]
  rw [started] at answers
  constructor
  · intro consistent
    obtain ⟨same, -⟩ := consistent first (by simp [answers]) (srv.derived tenantID key 0 norms) (by simp [answers])
    simp [started, ← same, srv.derived_addresses]
  · intro same
    have repeated : srv.derived tenantID key 0 norms = first := by
      rw [same first (by simp [started]), named, listed]
    intro head isHead listing member
    have isFirst : head = first := by simpa [answers, eq_comm] using isHead
    subst isFirst
    rw [store, deleted]
    apply invariant.consistent head (by simp [started])
    rw [answers, repeated] at member
    simpa [started, or_comm] using member

theorem post_keeps (named : key ≠ []) (invariant : KeyInvariant srv tenantID key run)
    (same : SameAddresses srv run (.post req failures))
    (stepped : (keySystem srv tenantID key).step run (.post req failures) = some next) :
    KeyInvariant srv tenantID key next := by
  obtain ⟨reply, outcome, answers, deleted⟩ := post_outcome named stepped
  cases outcome with
  | refused failure keeps =>
      rw [answeredListing, append_nil] at answers
      apply invariant.quiet answers keeps.chunk
      rw [deleted]
      exact fun id => Or.imp_left (keeps.deliveries id)
  | replayed result norms completed unchanged valid listed =>
      have answered : run.answers ≠ [] := invariant.completed.mp completed
      rw [answeredListing, listed] at answers
      refine ⟨?_, ?_, (replayed_consistent_iff invariant answered unchanged deleted answers).mpr fun first head =>
        same first head norms valid⟩
      · simp [unchanged, completed, answers]
      · intro listing member
        rw [answers, mem_append, mem_singleton] at member
        exact member.elim (invariant.derived listing) fun last => ⟨norms, last⟩
  | accepted result norms first completed kept valid listed stored =>
      have silent : run.answers = [] := by
        by_contra answered
        exact first (invariant.completed.mpr answered)
      rw [silent, nil_append, answeredListing] at answers
      refine ⟨by simp [completed, answers], ?_, ?_⟩
      · intro listing member
        rw [answers, mem_singleton] at member
        exact ⟨norms, member.trans listed⟩
      · intro head isHead listing member
        rw [answers, mem_singleton] at member
        have isFirst : srv.listing result = head := by simpa [answers] using isHead
        subst member
        exact ⟨isFirst, fun pair inside => .inl (stored pair inside)⟩

theorem keyInvariant_reached (named : key ≠ []) (unused : keyRow key start.store = none)
    (silent : start.answers = []) (reached : (keySystem srv tenantID key).Reaches (SameAddresses srv) start state) :
    KeyInvariant srv tenantID key state := by
  apply reached.invariant
  · exact ⟨by simp [Completed, unused, silent], by simp [silent], by simp [Consistent, silent]⟩
  · intro run label next invariant same stepped
    cases label with
    | post req failures => exact post_keeps named invariant same stepped
    | retention ids =>
        simp only [keySystem, Option.some.injEq] at stepped
        subst stepped
        refine invariant.quiet rfl rfl fun id known => ?_
        by_cases deleted : id ∈ ids
        · exact .inr (mem_append_right _ deleted)
        · refine known.imp (fun stored => ?_) (mem_append_left _)
          rwa [StoredDelivery, Table.get_eraseAll deleted]
    | elsewhere other =>
        simp only [keySystem] at stepped
        split at stepped
        · rename_i retained
          cases stepped
          have keeps := retains_keeps retained
          exact invariant.quiet rfl keeps.chunk fun id => Or.imp_left (keeps.deliveries id)
        · cases stepped

/-- As long as every call that follows an answered one names the same addresses
in the same order, all answers agree and list stored deliveries.  The first
answered call that does not breaks this. -/
theorem repeated_key_answers (named : key ≠ []) {start state : KeyRun} (unused : keyRow key start.store = none)
    (silent : start.answers = []) (reached : (keySystem srv tenantID key).Reaches (SameAddresses srv) start state) :
    Consistent state ∧ ∀ req failures next, (keySystem srv tenantID key).step state (.post req failures) = some next →
      next.answers ≠ state.answers → (Consistent next ↔ SameAddresses srv state (.post req failures)) := by
  have invariant := keyInvariant_reached named unused silent reached
  refine ⟨invariant.consistent, fun req failures next stepped answered => ⟨fun consistent => ?_, fun same => ?_⟩⟩
  · obtain ⟨reply, outcome, answers, deleted⟩ := post_outcome named stepped
    cases outcome with
    | refused failure keeps =>
        rw [answeredListing, append_nil] at answers
        exact absurd answers answered
    | replayed result norms completed unchanged valid listed =>
        rw [answeredListing, listed] at answers
        have same := (replayed_consistent_iff invariant (invariant.completed.mp completed) unchanged deleted
          answers).mp consistent
        intro first head others named
        cases valid.symm.trans named
        exact same first head
    | accepted result norms first completed kept valid listed stored =>
        have silent : state.answers = [] := by
          by_contra answered
          exact first (invariant.completed.mpr answered)
        intro head isHead
        simp [silent] at isHead
  · exact (post_keeps named invariant same stepped).consistent

end

def plainServer : MessageServer where
  lower := id
  lower_control := fun _ _ _ => id
  quote := id
  parseAddress := .ok
  toASCII := .ok
  sha1 := List.reverse

def messageTo (email : Text) : MessageRequest where
  recipients := [{ email }]
  idempotencyKey := text "order-17"
  resolve := fun _ => .ok { versionID := text "v1", senderID := text "s1" }
  settingsAt := 1000000
  now := 1000000

def unusedKey : KeyRun where
  store := { tenant := text "t1", clock := 1000000, settings := some { version := 1 } }

def keyLabels (emails : List Text) : List KeyStep :=
  emails.map fun email => .post (messageTo email) []

instance (run : KeyRun) : Decidable (Consistent run) :=
  inferInstanceAs (Decidable (∀ first ∈ run.answers.head?, ∀ listing ∈ run.answers, listing = first ∧
    ∀ pair ∈ listing, ((run.store.deliveries[pair.2]?).isSome = true ∨ pair.2 ∈ run.deleted)))

instance (srv : MessageServer) (run : KeyRun) (step : KeyStep) : Decidable (SameAddresses srv run step) :=
  match step with
  | .post req _ => inferInstanceAs (Decidable (∀ first ∈ run.answers.head?,
      ∀ norms ∈ srv.addresses req.recipients, norms = first.map Prod.fst))
  | .retention _ => .isTrue trivial
  | .elsewhere _ => .isTrue trivial

/-- The same call twice: both answers list the one stored delivery. -/
theorem same_recipient_is_replayed :
    ∃ final, (keySystem plainServer (text "t1") (text "order-17")).run unusedKey
        (keyLabels [text "ann@example.org", text "ann@example.org"]) = some final ∧
      final.answers.length = 2 ∧ Consistent final := by
  refine ⟨_, rfl, by decide +kernel, ?_⟩
  have guarded : (keySystem plainServer (text "t1") (text "order-17")).Guarded (SameAddresses plainServer)
      unusedKey (keyLabels [text "ann@example.org", text "ann@example.org"]) := by decide +kernel
  exact (repeated_key_answers (by decide) (by decide +kernel) rfl (System.reaches_of_run guarded rfl)).1

/-- The second call is answered with the ID of a delivery that nobody stored. -/
theorem other_recipient_is_announced_unstored :
    ∃ final, (keySystem plainServer (text "t1") (text "order-17")).run unusedKey
        (keyLabels [text "ann@example.org", text "bob@example.org"]) = some final ∧
      final.answers.length = 2 ∧ final.store.deliveries.size = 1 ∧ ¬Consistent final := by
  refine ⟨_, rfl, ?_⟩
  decide +kernel

end Sendplane.Api
