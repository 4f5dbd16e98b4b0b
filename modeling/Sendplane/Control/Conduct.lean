import Sendplane.Control.Operations

namespace Sendplane.Control

open Data Store Memstore Prog

def edge : CampaignStatus → CampaignStatus → Bool
  | .draft, .scheduled | .draft, .running | .scheduled, .running => true
  | .running, .paused | .paused, .running => true
  | .draft, .cancelled | .scheduled, .cancelled | .running, .cancelled | .paused, .cancelled => true
  | .running, .completed | .completed, .running => true
  | _, _ => false

/-- The row still has the status it was read with, or a later version. -/
def Known (c : Campaign) (s : TenantStore) : Prop :=
  ∃ cur, s.campaigns[c.id]? = some cur ∧ cur.id = c.id ∧
    (c.version < cur.version ∨ c.version = cur.version ∧ cur.status = c.status)

/-- What the operations write, given the row they have read: an edit keeps the
status and takes its version from the client, everything else follows an edge
under the version that was read. -/
def Writes (caller : Caller) (seen written : Campaign) : Prop :=
  written.id = seen.id ∧ (caller = .updateCampaign ∧ written.status = seen.status ∨
      caller ≠ .updateCampaign ∧ written.version = seen.version ∧ edge seen.status written.status = true)

/-- The status moves along an edge, with a new version, or not at all. -/
def RowStep (caller : Caller) (old new : Campaign) : Prop :=
  new.id = old.id ∧ (new.version = old.version ∧ new.status = old.status ∨ new.version = old.version + 1 ∧
        (new.status = old.status ∨ caller ≠ .updateCampaign ∧ edge old.status new.status = true))

/-- An edit is written under a version no newer than the one of the row that
the handler has read. -/
def EditsWhatItRead : Tag → Option Err → Prop
  | ⟨.updateCampaign, .campaignUpdate seen written⟩, none => written.version ≤ seen.version
  | _, _ => True

def transitions : Discipline Tag TenantStore Err where
  allowed tag failure _ := EditsWhatItRead tag failure
  guarantee tag before after :=
    Table.Changes (fun _ old new => RowStep tag.caller old new) before.campaigns after.campaigns

theorem transitions_quiet (same : after.campaigns = before.campaigns) : transitions.guarantee tag before after := by
  change Table.Changes _ before.campaigns after.campaigns
  rw [same]
  exact .refl _

theorem transitions_write (caller : Caller) (seen written : Campaign) (s : TenantStore)
    (known : Known seen s) (writes : Writes caller seen written)
    (allowed : transitions.allowed ⟨caller, .campaignUpdate seen written⟩ none s) :
    transitions.guarantee ⟨caller, .campaignUpdate seen written⟩ s (s.campaignUpdate written).2 := by
  rcases s.campaignUpdate_cases with ⟨failure, failed⟩ | ⟨cur, stored, current, updated⟩
  · rw [failed]
    exact transitions_quiet rfl
  · rw [updated]
    obtain ⟨sameID, writes⟩ := writes
    have version : written.version ≤ seen.version := by
      rcases writes with ⟨rfl, _⟩ | ⟨_, same, _⟩
      · exact allowed
      · exact same.le
    obtain ⟨row, found, own, fresh⟩ := known
    rw [← sameID, stored] at found
    cases found
    -- The versions agree, so the row still has the status the operation has seen.
    have unchanged : cur.status = seen.status := by
      rcases fresh with newer | ⟨_, same⟩
      · omega
      · exact same
    refine (Table.changes_insert stored).imp ?_
    intro _ old new _ changed
    obtain ⟨_, rfl, rfl⟩ := changed
    refine ⟨sameID.trans own.symm, .inr ⟨rfl, ?_⟩⟩
    rw [unchanged]
    rcases writes with ⟨_, same⟩ | ⟨operation, _, along⟩
    · exact .inl same
    · exact .inr ⟨operation, along⟩

theorem transitions_updateStats (id : Text) (stats : CampaignStats) (s : TenantStore) :
    transitions.guarantee tag s (s.campaignUpdateStats id stats).2 := by
  refine (TenantStore.campaignUpdateStats_changes id stats).imp ?_
  intro _ old new _ changed
  subst changed
  exact ⟨rfl, .inl ⟨rfl, rfl⟩⟩

variable {α β : Type} {s : TenantStore}

def Obeys (proc : Proc α) (s : TenantStore) : Prop :=
  proc.Respects transitions (fun _ _ => True) s

theorem ends (value : α) : Obeys (pure value) s :=
  fun _ _ => trivial

theorem known_of_stored {id : Text} (keyed : Keyed s) (stored : s.campaigns[id]? = some c) : Known c s := by
  have own := keyed id c stored
  subst own
  exact ⟨c, stored, rfl, .inr ⟨rfl, rfl⟩⟩

namespace Obeys

theorem known_stable (c : Campaign) : transitions.Stable (Known c) := by
  intro tag before after guaranteed known
  obtain ⟨cur, stored, own, fresh⟩ := known
  obtain ⟨next, found, step⟩ := guaranteed.get stored
  rcases step with same | ⟨sameID, ⟨version, status⟩ | ⟨version, _⟩⟩
  · exact ⟨next, found, by rw [same]; exact own, by rw [same]; exact fresh⟩
  · exact ⟨next, found, sameID.trans own, by rw [version, status]; exact fresh⟩
  · refine ⟨next, found, sameID.trans own, .inl ?_⟩
    rcases fresh with newer | ⟨same, _⟩ <;> omega

theorem keyed_stable : transitions.Stable Keyed := by
  intro tag before after guaranteed keyed id c stored
  obtain ⟨old, found, same | ⟨sameID, _⟩⟩ := guaranteed.origin stored
  · rw [same]
    exact keyed id old found
  · exact sameID.trans (keyed id old found)

variable {next : Except Err β → Proc α}

theorem query (keyed : Keyed s)
    (continues : ∀ reply now, Keyed now → (∀ c, Known c s → Known c now) →
      (∀ value, reply = .ok value → look now = .ok value) →
      (next reply).Respects transitions post now) : (query tag look >>= next).Respects transitions post s := by
  refine respects_query (fun now => transitions_quiet rfl) ?_ ?_
  · intro now meanwhile
    exact continues (look now) now (keyed_stable.interferes meanwhile keyed)
      (fun c => (known_stable c).interferes meanwhile) fun value same => same
  · intro now failure meanwhile _
    exact continues (.error failure) now (keyed_stable.interferes meanwhile keyed)
      (fun c => (known_stable c).interferes meanwhile) fun value same => by cases same

theorem queryOk (keyed : Keyed s)
    (failed : ∀ e now, (next (.error e)).Respects transitions post now)
    (found : ∀ value now, Keyed now → (∀ c, Known c s → Known c now) → look now = .ok value →
      (next (.ok value)).Respects transitions post now) : (Prog.query tag look >>= next).Respects transitions post s := by
  refine query keyed fun reply now keyed later answer => ?_
  cases reply with
  | error e => exact failed e now
  | ok value => exact found value now keyed later (answer value rfl)

variable {op : TenantStore → Except Err β × TenantStore}

theorem invoke (keyed : Keyed s)
    (guaranteed : ∀ now, (∀ c, Known c s → Known c now) → transitions.allowed tag none now →
      transitions.guarantee tag now (op now).2) (continues : ∀ reply now, Keyed now → (∀ c, Known c s → Known c now) →
      (next reply).Respects transitions post now) : (invoke tag op >>= next).Respects transitions post s := by
  refine respects_invoke ?_ ?_
  · intro now meanwhile allowed
    have later := fun c => (known_stable c).interferes meanwhile
    have kept := guaranteed now later allowed
    refine ⟨kept, continues _ _ ?_ fun c known => ?_⟩
    · exact keyed_stable tag _ _ kept (keyed_stable.interferes meanwhile keyed)
    · exact known_stable c tag _ _ kept (later c known)
  · intro now failure meanwhile _
    exact continues _ now (keyed_stable.interferes meanwhile keyed)
      fun c => (known_stable c).interferes meanwhile

variable {next : Except Err Campaign → Proc α}

theorem getCampaign {id : Text} (keyed : Keyed s)
    (found : ∀ c now, c.id = id → Keyed now → Known c now → (next (.ok c)).Respects transitions post now)
    (failed : ∀ e now, (next (.error e)).Respects transitions post now) :
    (getCampaign caller id >>= next).Respects transitions post s := by
  refine queryOk keyed failed fun c now keyedNow _ looked => ?_
  have stored : now.campaigns[id]? = some c := by
    unfold TenantStore.campaignGet find at looked
    split at looked
    · cases looked
    next row present =>
      cases looked
      exact present
  exact found c now (keyedNow id c stored) keyedNow (known_of_stored keyedNow stored)

theorem updateCampaign (keyed : Keyed s) (known : Known seen s) (writes : Writes caller seen written)
    (continues : ∀ reply now, Keyed now → (∀ c, Known c s → Known c now) → (next reply).Respects transitions post now) :
    (updateCampaign caller seen written >>= next).Respects transitions post s :=
  invoke keyed (fun now later => transitions_write caller seen written now (later seen known) writes)
    continues

theorem bind {next : β → Proc α} (obeys : Obeys proc s) (keyed : Keyed s)
    (continues : ∀ value now, Keyed now → (∀ c, Known c s → Known c now) → (next value).Respects transitions post now) :
    (proc >>= next).Respects transitions post s := by
  have stable : transitions.Stable fun now => Keyed now ∧ ∀ c, Known c s → Known c now :=
    keyed_stable.and (.forall fun c tag before after guaranteed known held =>
      known_stable c tag before after guaranteed (known held))
  exact Respects.bindKeeping obeys stable ⟨keyed, fun _ => id⟩
    fun value now _ both => continues value now both.1 both.2

variable {now : Time}

section

variable (keyed : Keyed s)
include keyed

theorem enqueueCampaignEvent : Obeys (enqueueCampaignEvent caller newID c type now byStatus) s := by
  apply invoke keyed (fun now _ _ => transitions_quiet rfl)
  intro reply now _ _
  cases reply <;> exact ends _

theorem resolveCampaignVersion : (resolveCampaignVersion caller cam).Respects transitions (fun reply _ => ∀ bound,
      reply = .ok bound → bound.id = cam.id ∧ bound.version = cam.version ∧ bound.status = cam.status) s := by
  unfold Control.resolveCampaignVersion
  split
  · intro _ _ bound same
    cases same
    exact ⟨rfl, rfl, rfl⟩
  split
  · intro _ _ bound same
    cases same
  apply query keyed
  intro reply now _ _ _
  cases reply with
  | error e =>
      by_cases missing : e.kind = .notFound <;> simp only [missing] <;> intro _ _ bound same <;> cases same
  | ok tpl =>
      by_cases unpublished : tpl.publishedVersionID = []
      · simp only [unpublished]
        intro _ _ bound same
        cases same
      · simp only [unpublished]
        intro _ _ bound same
        cases same
        exact ⟨rfl, rfl, rfl⟩

theorem writeTransition (known : Known seen s) (sameID : written.id = seen.id)
    (sameVersion : written.version = seen.version) (operation : caller ≠ .updateCampaign)
    (along : edge seen.status written.status = true) :
    Obeys (writeTransition caller newID seen written event now) s := by
  refine updateCampaign keyed known ⟨sameID, .inr ⟨operation, sameVersion, along⟩⟩
    fun reply now keyedNow _ => ?_
  cases reply with
  | error e => exact ends _
  | ok cam =>
      cases event with
      | none => exact ends _
      | some type => exact enqueueCampaignEvent keyedNow

theorem startCampaign {id : Text} : Obeys (startCampaign now newID id time) s := by
  refine getCampaign keyed (fun cam s _ keyed known => ?_) fun e s => ends _
  dsimp only
  split
  · exact ends _
  next draft =>
  have draft : cam.status = .draft := not_not.mp draft
  split
  · exact ends _
  split
  · exact ends _
  apply query keyed
  intro reply s keyed later _
  replace known := later cam known
  cases reply with
  | error e =>
      dsimp only
      split <;> exact ends _
  | ok sender =>
      refine queryOk keyed (fun e s => ends _) fun counts s keyed later _ => ?_
      replace known := later cam known
      dsimp only
      split
      · exact ends _
      split
      · exact writeTransition keyed known rfl rfl (by decide) (by rw [draft]; rfl)
      · refine Respects.bindKeeping (resolveCampaignVersion keyed)
          (keyed_stable.and (known_stable cam)) ⟨keyed, known⟩ fun reply s bound both => ?_
        cases reply with
        | error e => exact ends _
        | ok cam' =>
            obtain ⟨sameID, sameVersion, _⟩ := bound cam' rfl
            exact writeTransition both.1 both.2 sameID sameVersion (by decide) (by rw [draft]; rfl)

theorem pauseCampaign {id : Text} : Obeys (pauseCampaign now newID id) s := by
  refine getCampaign keyed (fun cam s _ keyed known => ?_) fun e s => ends _
  dsimp only
  split
  · exact ends _
  next running =>
  have running : cam.status = .running := not_not.mp running
  exact writeTransition keyed known rfl rfl (by decide) (by rw [running]; rfl)

theorem resumeCampaign {id : Text} : Obeys (resumeCampaign now newID id) s := by
  refine getCampaign keyed (fun cam s _ keyed known => ?_) fun e s => ends _
  dsimp only
  split
  · exact ends _
  next paused =>
  have paused : cam.status = .paused := not_not.mp paused
  exact writeTransition keyed known rfl rfl (by decide) (by rw [paused]; rfl)

theorem cancelCampaign {id : Text} : Obeys (cancelCampaign now newID id) s := by
  refine getCampaign keyed (fun cam s _ keyed known => ?_) fun e s => ends _
  dsimp only
  split
  all_goals first
    | exact ends _
    | rename_i status
      exact writeTransition keyed known rfl rfl (by decide) (by rw [status]; rfl)

end

variable {κ : Type} {visit : κ → Campaign → Proc (κ × Option Err)} {state : κ}

theorem visitAll (visits : ∀ state c now, c ∈ items → Keyed now → Known c now → Obeys (visit state c) now)
    (keyed : Keyed s) (known : ∀ c ∈ items, Known c s) : Obeys (visitAll visit items state) s := by
  induction items generalizing state s with
  | nil => exact ends _
  | cons c rest ih =>
      have first := visits state c s List.mem_cons_self keyed (known c List.mem_cons_self)
      apply bind first keyed
      intro outcome now keyedNow later
      obtain ⟨next, failure⟩ := outcome
      cases failure with
      | some e => exact ends _
      | none =>
          exact ih (fun state other now member => visits state other now (List.mem_cons_of_mem _ member))
            keyedNow fun other member => later other (known other (List.mem_cons_of_mem _ member))

variable {pages : Nat} {cursor : Text}

theorem eachCampaign {pageSize : Int}
    (visits : ∀ state c now, c.status ∈ statuses → Keyed now → Known c now → Obeys (visit state c) now)
    (keyed : Keyed s) : Obeys (eachCampaign caller visit statuses pageSize pages cursor state) s := by
  induction pages generalizing cursor state s with
  | zero => exact ends _
  | succ pages ih =>
      refine queryOk keyed (fun e s => ends _) fun _ s keyed _ _ => ?_
      refine queryOk keyed (fun e s => ends _) fun res s keyed _ looked => ?_
      have listed : ∀ c ∈ res.items, c.status ∈ statuses ∧ Known c s := by
        intro c member
        simp only [TenantStore.campaignListByStatus, Except.ok.injEq] at looked
        rw [← looked] at member
        obtain ⟨kept, id, stored⟩ := mem_paginate member
        exact ⟨by simpa using kept, known_of_stored keyed stored⟩
      have page : Obeys (Control.visitAll visit res.items state) s :=
        visitAll (fun state c now member => visits state c now (listed c member).1)
          keyed fun c member => (listed c member).2
      apply bind page keyed
      intro outcome s keyed _
      obtain ⟨next, failure⟩ := outcome
      cases failure with
      | some e => exact ends _
      | none =>
          dsimp only
          split
          · exact ends _
          · exact ih keyed

theorem schedulerVisit {state : Unit} (scheduled : c.status = .scheduled) (keyed : Keyed s) (known : Known c s) :
    Obeys (schedulerVisit now newID state c) s := by
  unfold Control.schedulerVisit
  split
  · exact ends _
  refine Respects.bindKeeping (resolveCampaignVersion keyed)
    (keyed_stable.and (known_stable c)) ⟨keyed, known⟩ fun reply s bound both => ?_
  cases reply with
  | error e => exact ends _
  | ok cam =>
      obtain ⟨sameID, sameVersion, _⟩ := bound cam rfl
      refine updateCampaign both.1 both.2
        ⟨sameID, .inr ⟨by decide, sameVersion, by rw [scheduled]; rfl⟩⟩ fun reply s keyed _ => ?_
      cases reply with
      | error e => exact ends _
      | ok written => exact bind (enqueueCampaignEvent keyed) keyed fun _ _ _ _ => ends _

variable {state : TickState}

theorem finalizerConclude {stats : CampaignStats} (running : c.status = .running) (keyed : Keyed s)
    (known : Known c s) : Obeys (finalizerConclude now newID state c counts stats) s := by
  apply invoke keyed (fun now _ _ => transitions_updateStats _ _ now)
  intro reply s keyed later
  replace known := later c known
  cases reply with
  | error e => exact ends _
  | ok _ =>
      dsimp only
      split
      · exact ends _
      · refine updateCampaign keyed known
          ⟨rfl, .inr ⟨by decide, rfl, by rw [running]; rfl⟩⟩ fun reply s keyed _ => ?_
        cases reply with
        | error e => exact ends _
        | ok cam => exact bind (enqueueCampaignEvent keyed) keyed fun _ _ _ _ => ends _

variable {config : FinalizerConfig}

theorem finalizerVisit (running : c.status = .running) (keyed : Keyed s) (known : Known c s) :
    Obeys (finalizerVisit config now newID state c) s := by
  unfold Control.finalizerVisit
  dsimp only
  split
  · exact ends _
  refine queryOk keyed (fun e s => ends _) fun counts s keyed later _ => ?_
  replace known := later c known
  apply query keyed
  intro reply s keyed later _
  replace known := later c known
  cases reply <;> exact finalizerConclude running keyed known

theorem refreshAll {window : Duration} (keyed : Keyed s) : Obeys (refreshAll now window items) s := by
  induction items generalizing s with
  | nil => exact ends _
  | cons c rest ih =>
      unfold Control.refreshAll
      split
      · have one : Obeys (refreshOne c now) s := by
          refine queryOk keyed (fun e s => ends _) fun uniques s keyed _ _ => ?_
          apply invoke keyed (fun now _ _ => transitions_updateStats _ _ now)
          intro reply s _ _
          cases reply <;> exact ends _
        apply bind one keyed
        intro outcome s keyed _
        cases outcome with
        | some e => exact ends _
        | none => exact ih keyed
      · exact ih keyed

theorem refreshPages {scanned : Nat} (keyed : Keyed s) :
    Obeys (refreshPages config now start pages scanned cursor) s := by
  induction pages generalizing scanned cursor s with
  | zero => exact ends _
  | succ pages ih =>
      unfold Control.refreshPages
      split
      · exact ends _
      refine queryOk keyed (fun e s => ends _) fun _ s keyed _ _ => ?_
      refine queryOk keyed (fun e s => ends _) fun res s keyed _ _ => ?_
      apply bind (refreshAll keyed) keyed
      intro outcome s keyed _
      cases outcome with
      | some e => exact ends _
      | none =>
          dsimp only
          split
          · exact ends _
          · exact ih keyed

theorem finalizerTick {f : Finalizer} (keyed : Keyed s) : Obeys (finalizerTick config now newID f pages) s := by
  have running : Obeys (tickRunning config now newID f.skips pages) s := by
    refine bind (eachCampaign (fun state c now status keyed known =>
      finalizerVisit (by simpa using status) keyed known) keyed) keyed fun _ _ _ _ => ends _
  apply bind running keyed
  intro _ s keyed _
  have refresh : Obeys (refreshTracking config now f.refreshCursor pages) s := by
    unfold Control.refreshTracking
    split
    · exact ends _
    · exact refreshPages keyed
  exact bind refresh keyed fun _ _ _ _ => ends _

theorem apiUpdateCampaign {id : Text} (keyed : Keyed s) : Obeys (Api.updateCampaign id body) s := by
  refine getCampaign keyed (fun c s _ keyed known => ?_) fun e s => ends _
  dsimp only
  split
  · exact ends _
  refine queryOk keyed (fun e s => ends _) fun resolved s keyed later _ => ?_
  -- The write keeps the status of the copy; only its version is the client's.
  exact updateCampaign keyed (later c known) ⟨rfl, .inl ⟨rfl, rfl⟩⟩ fun reply _ _ _ => ends reply

theorem requeueChunks {filter : RetryFilter} {chunk passes total : Nat} (keyed : Keyed s) :
    Obeys (requeueChunks filter chunk passes total) s := by
  induction passes generalizing total s with
  | zero => exact ends _
  | succ passes ih =>
      refine queryOk keyed (fun e s => ends _) fun _ s keyed _ _ => ?_
      refine invoke keyed (fun now _ _ => transitions_quiet rfl) fun reply s keyed _ => ?_
      cases reply with
      | error e => exact ends _
      | ok moved =>
          dsimp only
          split
          · exact ends _
          · exact ih keyed

theorem retryCampaign {id : Text} {filter : RetryFilter} {chunk : Nat} (keyed : Keyed s) :
    Obeys (retryCampaign now chunk newID id filter) s := by
  refine getCampaign keyed (fun cam s _ keyed known => ?_) fun e s => ends _
  dsimp only
  split
  · exact ends _
  split
  · exact ends _
  apply bind (requeueChunks keyed) keyed
  intro outcome s keyed later
  replace known := later cam known
  obtain ⟨total, failure⟩ := outcome
  cases failure with
  | some e => exact ends _
  | none =>
      by_cases idle : total = 0 ∨ cam.status ≠ .completed
      · simp only [finishRetry, idle]
        exact ends _
      · have completed : cam.status = .completed := by
          simpa using (not_or.mp idle).2
        simp only [finishRetry, idle]
        exact bind (writeTransition keyed known rfl rfl (by decide) (by rw [completed]; rfl)) keyed
          fun _ _ _ _ => ends _

theorem ingest : Obeys (Ingest.ingest ing now campaignID chunkKey lines) s := by
  refine Ingest.ingest_makes.respects fun tag effect now call _ => ?_
  obtain ⟨caller, call⟩ := tag
  obtain ⟨rfl, ⟨_, same⟩ | ⟨_, c, put⟩ | ⟨newID, ds, rfl, inserts⟩⟩ := call
  · exact transitions_quiet (by rw [same]; rfl)
  · apply transitions_quiet
    simp only [put, TenantStore.chunkPut]
    split <;> rfl
  · exact transitions_quiet (by rw [inserts]; rfl)

theorem discard {proc : Proc α} (obeys : Obeys proc s) (keyed : Keyed s) : Obeys (Prog.discard proc) s :=
  bind obeys keyed fun _ _ _ _ => ends ()

theorem deliveryCall (keeps : ∀ now : TenantStore, (op now).2.campaigns = now.campaigns) (keyed : Keyed s) :
    Obeys (Prog.discard (Prog.invoke tag op)) s :=
  invoke keyed (fun now _ _ => transitions_quiet (keeps now)) fun _ _ _ _ => ends ()

theorem program (operation : Operation) (keyed : Keyed s) : Obeys (program operation) s := by
  cases operation with
  | start => exact discard (startCampaign keyed) keyed
  | pause => exact discard (pauseCampaign keyed) keyed
  | resume => exact discard (resumeCampaign keyed) keyed
  | cancel => exact discard (cancelCampaign keyed) keyed
  | retry => exact discard (retryCampaign keyed) keyed
  | scheduler now newID pageSize pages =>
      have tick : Obeys (schedulerTick now newID pageSize pages) s :=
        eachCampaign (fun _ c _ status keyed known =>
          schedulerVisit (by simpa using status) keyed known) keyed
      exact discard tick keyed
  | finalizer => exact discard (finalizerTick keyed) keyed
  | updateCampaign => exact discard (apiUpdateCampaign keyed) keyed
  | ingest => exact discard ingest keyed
  | claim | complete | markSent | releaseExpiredLeases | passTime => exact deliveryCall (fun _ => rfl) keyed

end Obeys

end Sendplane.Control
