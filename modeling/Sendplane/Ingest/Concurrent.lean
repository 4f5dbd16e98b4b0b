import Sendplane.Data.Accounts
import Sendplane.Ingest.Counts

namespace Sendplane.Ingest

open Data Store Memstore Memstore.DeliveryRepo Control Prog

/-- What a call knows of the size: its first count, and what it has inserted since. -/
structure Knowledge where
  made : Nat := 0
  known : Int := 0

def knowledge (campaignID : Text) : Accounting Tag TenantStore Knowledge where
  opening := {}
  enter k _ before after := {
    made := k.made + 1
    known := if k.made = 1 then after.campaignSize campaignID
      else k.known + after.campaignSize campaignID - before.campaignSize campaignID }

/-- A batch is inserted while the campaign has the recipients its call knows of. -/
def UpToDate (campaignID : Text) (k : Knowledge) (tag : Tag) (s : TenantStore) : Prop :=
  match tag.call with
  | .insertBatch _ _ => k.known = s.campaignSize campaignID
  | _ => True

instance (campaignID : Text) (k : Knowledge) (tag : Tag) (s : TenantStore) : Decidable (UpToDate campaignID k tag s) :=
  decidable_of_bool (match tag.call with
    | .insertBatch _ _ => k.known = s.campaignSize campaignID
    | _ => true) <| by
      unfold UpToDate
      split <;> simp

structure Upload where
  chunkKey : Text := []
  now : Time := 0
  lines : List Line

def uploads (ing : Ingester) (campaignID : Text) : System (AccountedPool Tag TenantStore Err Knowledge) (Move Upload Err) :=
  (knowledge campaignID).system fun upload =>
    (ingest ing upload.now campaignID upload.chunkKey upload.lines).discard

/-- The campaign has not outgrown the limit. -/
def AtMost (ing : Ingester) (campaignID : Text) (s : TenantStore) : Prop :=
  s.campaignSize campaignID ≤ ing.maxRecipients

variable {α : Type} {ing : Ingester} {campaignID : Text} {existing : Int} {k : Knowledge} {run : Run}

abbrev Tracked (ing : Ingester) (campaignID : Text) (post : Knowledge → α → Prop) (k : Knowledge) (program : Proc α) : Prop :=
  program.Tracks (knowledge campaignID) (UpToDate campaignID) (AtMost ing campaignID) post k

/-- What a call knows and has collected still fits below the limit. -/
structure Fits (ing : Ingester) (existing : Int) (k : Knowledge) (run : Run) : Prop where
  counted : 2 ≤ k.made
  known : k.known ≤ existing + run.res.accepted
  room : existing + run.res.accepted + run.batch.length ≤ ing.maxRecipients

theorem enter_same (counted : 2 ≤ k.made) (same : after.toDeliveryRepo = s.toDeliveryRepo) :
    (knowledge campaignID).enter k tag s after = { made := k.made + 1, known := k.known } := by
  have later : ¬k.made = 1 := by omega
  simp [knowledge, later, same]

section

variable (fits : Fits ing existing k run)
include fits

theorem Fits.enter (tag : Tag) (s : TenantStore) : Fits ing existing ((knowledge campaignID).enter k tag s s) run := by
  rw [enter_same fits.counted rfl]
  exact ⟨Nat.le_succ_of_le fits.counted, fits.known, fits.room⟩

theorem flush_tracked :
    Tracked ing campaignID (fun k outcome => outcome.2 = none → outcome.1.batch = [] ∧ Fits ing existing k outcome.1) k
      (flush run) := by
  unfold flush
  split
  next empty => exact fun _ => ⟨empty, fits⟩
  · apply tracks_invoke
    · intro s holds upToDate
      have known : k.known = s.campaignSize campaignID := upToDate
      have counted := fits.counted
      have later : ¬k.made = 1 := by omega
      have bound := fits.known
      have room := fits.room
      rcases insertBatch_cases with ⟨⟨e, refused⟩, _⟩ | inserted
      · rw [refused]
        exact ⟨holds, nofun⟩
      · rw [inserted]
        obtain ⟨size, count⟩ := insertRows_size_le (truncateTime s.clock) (fun _ => []) 0 run.batch s.toDeliveryRepo campaignID
        refine ⟨?_, fun _ => ⟨rfl, ?_, ?_, ?_⟩⟩
        · unfold AtMost
          dsimp only
          omega
        · exact Nat.le_succ_of_le counted
        · simp only [knowledge, later]
          omega
        · simp only [List.length_nil]
          omega
    · intro s e holds
      exact nofun

theorem makeRoom_tracked :
    Tracked ing campaignID (fun k outcome => outcome.2 = none → Fits ing existing k outcome.1 ∧
      existing + outcome.1.res.accepted + outcome.1.batch.length < ing.maxRecipients) k
      (makeRoom ing camp existing run) := by
  unfold makeRoom
  split
  · refine (flush_tracked fits).bind ?_
    rintro k ⟨next, failure⟩ flushed
    cases failure with
    | some e => exact nofun
    | none =>
        obtain ⟨empty, fits⟩ := flushed rfl
        dsimp only at empty fits ⊢
        split
        · exact nofun
        · intro _
          refine ⟨fits, ?_⟩
          dsimp only
          rw [empty, List.length_nil]
          omega
  · intro _
    exact ⟨fits, by dsimp only; omega⟩

theorem appendRow_tracked :
    Tracked ing campaignID (fun k outcome => outcome.2 = none → Fits ing existing k outcome.1) k
      (appendRow ing camp existing run d) := by
  refine (makeRoom_tracked fits).bind ?_
  rintro k ⟨next, failure⟩ made
  cases failure with
  | some e => exact nofun
  | none =>
      obtain ⟨fits, room⟩ := made rfl
      dsimp only at fits room
      have appended : Fits ing existing k
          { next with batch := next.batch ++ [d], seen := d.emailNorm :: next.seen } := by
        refine ⟨fits.counted, fits.known, ?_⟩
        simp only [List.length_append, List.length_cons, List.length_nil]
        omega
      dsimp only
      split
      · refine (flush_tracked appended).weaken ?_
        intro k outcome flushed done
        exact (flushed done).2
      · exact fun _ => appended

theorem Fits.counting (same : res.accepted = run.res.accepted) : Fits ing existing k { run with res } :=
  ⟨fits.counted, same ▸ fits.known, same ▸ fits.room⟩

end

theorem streamLines_tracked (lineNo : Nat) (fits : Fits ing existing k run) :
    Tracked ing campaignID (fun _ _ => True) k (streamLines ing camp now existing lineNo lines run) := by
  induction lines generalizing lineNo run k with
  | nil =>
      apply tracks_query
      · intro s _
        exact (flush_tracked (fits.enter _ s)).weaken fun _ _ _ => trivial
      · intro s e _
        trivial
  | cons line rest ih =>
      apply tracks_query
      · intro s _
        have fits : Fits ing existing ((knowledge campaignID).enter k ⟨.ingest, .ctxErr⟩ s s) run := fits.enter _ s
        cases line with
        | unreadable e => trivial
        | tooLong => exact ih _ (fits.counting rfl)
        | blank => exact ih _ fits
        | rejected email e => exact ih _ (fits.counting rfl)
        | recipient d =>
            dsimp only
            split
            · exact ih _ (fits.counting rfl)
            · refine (appendRow_tracked fits).bind ?_
              rintro k ⟨next, failure⟩ appended
              cases failure with
              | some e => trivial
              | none => exact ih _ (appended rfl)
      · intro s e _
        trivial

theorem stream_tracked (counted : 2 ≤ k.made) (known : k.known = existing) :
    Tracked ing campaignID (fun _ _ => True) k (stream ing camp now existing lines) := by
  unfold stream
  split
  · trivial
  · apply streamLines_tracked
    refine ⟨counted, ?_, ?_⟩
    · simp [known]
    · simp only [List.length_nil]
      omega

theorem count_tracked (second : k.made = 1) :
    Tracked ing campaignID (fun k reply => 2 ≤ k.made ∧ ∀ n, reply = .ok n → k.known = n) k (count campaignID) := by
  apply tracks_query
  · intro s _
    refine ⟨by simp [knowledge, second], ?_⟩
    intro n same
    cases same
    rw [splitCounts_eq_size]
    simp [knowledge, second]
  · intro s e _
    exact ⟨by simp [knowledge, second], nofun⟩

theorem chunkPut_repo (s : TenantStore) : (s.chunkPut c).2.toDeliveryRepo = s.toDeliveryRepo := by
  unfold TenantStore.chunkPut
  split <;> rfl

theorem putChunk_tracked (c : RecipientChunk)
    (continues : ∀ later reply, (2 ≤ k.made → 2 ≤ later.made ∧ later.known = k.known) →
      Tracked ing campaignID post later (next reply)) :
    Tracked ing campaignID post k (putChunk c >>= next) := by
  apply tracks_invoke
  · intro s holds _
    refine ⟨by rwa [AtMost, chunkPut_repo], continues _ _ ?_⟩
    intro counted
    rw [enter_same counted (chunkPut_repo s)]
    exact ⟨Nat.le_succ_of_le counted, rfl⟩
  · intro s e holds
    apply continues
    intro counted
    rw [enter_same counted rfl]
    exact ⟨Nat.le_succ_of_le counted, rfl⟩

theorem openChunk_tracked (counted : 2 ≤ k.made) (known : k.known = existing) :
    Tracked ing campaignID (fun k _ => 2 ≤ k.made ∧ k.known = existing) k (openChunk campaignID chunkKey existing) := by
  have records : ∀ k : Knowledge, 2 ≤ k.made → k.known = existing → Tracked ing campaignID
      (fun k _ => 2 ≤ k.made ∧ k.known = existing) k (openChunk.recordOpen campaignID chunkKey) := by
    intro k counted known
    apply putChunk_tracked
    intro later reply kept
    obtain ⟨counted, same⟩ := kept counted
    cases reply <;> exact ⟨counted, same.trans known⟩
  unfold openChunk
  split
  · exact ⟨counted, known⟩
  apply tracks_query
  · intro s _
    rw [enter_same counted rfl]
    have later := Nat.le_succ_of_le counted
    cases TenantStore.chunkGet campaignID chunkKey s with
    | ok prev =>
        dsimp only
        split
        · exact ⟨later, known⟩
        · exact records _ later known
    | error e =>
        dsimp only
        split
        · exact records _ later known
        · exact ⟨later, known⟩
  · intro s e _
    rw [enter_same counted rfl]
    have later := Nat.le_succ_of_le counted
    dsimp only
    split
    · exact records _ later known
    · exact ⟨later, known⟩

theorem finish_tracked (outcome : Run × Option Err) :
    Tracked ing campaignID (fun _ _ => True) k (do match ← count campaignID with
      | .error e => return (outcome.1.res, outcome.2 <|> some e)
      | .ok total => match outcome.2 with
        | some e => return ({ outcome.1.res with total }, some e)
        | none => closeChunk campaignID chunkKey { outcome.1.res with total }) := by
  apply tracks_query
  · intro s _
    cases outcome.2 with
    | some e => trivial
    | none =>
        dsimp only [closeChunk]
        split
        · trivial
        · apply putChunk_tracked
          intro later reply _
          cases reply <;> trivial
  · intro s e _
    trivial

theorem ingest_tracked : Tracked ing campaignID (fun _ _ => True) {} (ingest ing now campaignID chunkKey lines) := by
  apply tracks_query
  · intro s _
    cases TenantStore.campaignGet campaignID s with
    | error e => trivial
    | ok c =>
        dsimp only
        split
        · trivial
        refine (count_tracked rfl).bind ?_
        rintro k reply ⟨counted, known⟩
        cases reply with
        | error e => trivial
        | ok existing =>
            refine (openChunk_tracked counted (known existing rfl)).bind ?_
            rintro k reply ⟨counted, known⟩
            rcases reply with e | _ | replayed
            · trivial
            · refine (stream_tracked counted known).bind ?_
              intro k outcome _
              exact finish_tracked outcome
            · trivial
  · intro s e _
    trivial

/-- In every run in which a call only inserts while the campaign has the
recipients that the call knows of, the limit is kept. -/
theorem limit_kept_when_upToDate {start pool : AccountedPool Tag TenantStore Err Knowledge}
    (idle : start.threads = []) (within : start.store.campaignSize campaignID ≤ ing.maxRecipients)
    (reached : (uploads ing campaignID).Reaches (Accounting.Permits (UpToDate campaignID)) start pool) :
    pool.store.campaignSize campaignID ≤ ing.maxRecipients := by
  have initial := within
  have final : AtMost ing campaignID pool.store := by
    refine Accounting.invariant_of_reaches ?_ idle initial reached
    intro upload
    exact ingest_tracked.bind fun _ _ _ => trivial
  exact final

/-- Two calls with one recipient each, for a campaign that takes one. -/
def oneRecipient : Ingester where
  maxRecipients := 1

def uploadOf (id email : Text) : Upload where
  lines := [.recipient { id, email, emailNorm := email }]

def idleCampaign : AccountedPool Tag TenantStore Err Knowledge where
  store := emptyCampaign
  threads := []

def steps (thread count : Nat) : List (Move Upload Err) :=
  List.replicate count (.advance thread none)

def twoUploads : List (Move Upload Err) :=
  [.spawn (uploadOf (text "d1") (text "ann@example.org")), .spawn (uploadOf (text "d2") (text "bob@example.org"))]

/-- The second call counts after the first has inserted. -/
def orderlyUploads : List (Move Upload Err) :=
  twoUploads ++ steps 0 5 ++ steps 1 3

theorem orderlyUploads_within :
    ∃ pool, (uploads oneRecipient (text "c1")).run idleCampaign orderlyUploads = some pool ∧
      pool.store.campaignSize (text "c1") ≤ oneRecipient.maxRecipients := by
  have guarded : (uploads oneRecipient (text "c1")).Guarded (Accounting.Permits (UpToDate (text "c1")))
      idleCampaign orderlyUploads := by decide +kernel
  obtain ⟨pool, ran⟩ := Option.isSome_iff_exists.mp
    (by decide +kernel : ((uploads oneRecipient (text "c1")).run idleCampaign orderlyUploads).isSome = true)
  refine ⟨pool, ran, ?_⟩
  exact limit_kept_when_upToDate rfl (by decide +kernel) (System.reaches_of_run guarded ran)

/-- Both calls count before either inserts. -/
def racingUploads : List (Move Upload Err) :=
  twoUploads ++ steps 0 2 ++ steps 1 2 ++ steps 0 3 ++ steps 1 3

theorem race_exceeds_limit :
    ∃ pool, (uploads oneRecipient (text "c1")).Reachable idleCampaign pool ∧
      idleCampaign.store.campaignSize (text "c1") ≤ oneRecipient.maxRecipients ∧
      oneRecipient.maxRecipients < pool.store.campaignSize (text "c1") := by
  obtain ⟨pool, ran⟩ := Option.isSome_iff_exists.mp
    (by decide +kernel : ((uploads oneRecipient (text "c1")).run idleCampaign racingUploads).isSome = true)
  have size : ((uploads oneRecipient (text "c1")).run idleCampaign racingUploads).map
      (fun pool => pool.store.campaignSize (text "c1")) = some 2 := by decide +kernel
  rw [ran] at size
  have two : pool.store.campaignSize (text "c1") = 2 := Option.some.inj size
  refine ⟨pool, System.reachable_of_run ran, by decide +kernel, ?_⟩
  rw [two]
  decide

end Sendplane.Ingest
