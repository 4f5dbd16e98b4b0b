import Sendplane.Bounce.Concurrent
import Sendplane.Bounce.Platform

namespace Sendplane.Bounce

open Data Store Memstore Sendplane.Tracking Prog Provider

/-- The first return address of the message verifies under none of the keys. -/
def Forged (reader : Reader) (raw : Text) (keys : List SigningKey) : Prop :=
  ∃ c classified id mac, reader.read raw = .ok (c, classified) ∧
    (verpCandidates reader.syn c).findSome? verpParts = some (id, mac) ∧
    ∀ k ∈ keys, k.secret ≠ [] → mac ≠ verpMAC reader.signer k.secret id

/-- The message names another tenant. -/
def Foreign (reader : Reader) (raw tenantID : Text) : Prop :=
  ∃ c classified, reader.read raw = .ok (c, classified) ∧ (correlate reader.syn reader.signer c []).tenantID ≠ [] ∧
    (correlate reader.syn reader.signer c []).tenantID ≠ tenantID

/-- At most one event is new, and it is flagged as unverified. -/
def OnlyUnverified (before after : Table Text BounceEvent) : Prop :=
  after = before ∨ ∃ id row, before[id]? = none ∧ row.verified = false ∧ after = before.insert id row

section

variable {base : Processor} {tenantID : Text} {after : Provider} {trace : Prog.Trace Call}

/-- A forged return address shadows every other correlation. -/
theorem parse_forged (forged : Forged reader raw keys) :
    ∃ parsed, reader.parseWithKeys raw keys = .ok parsed ∧ parsed.correlation.verified = false ∧
      parsed.correlation.tenantID = [] := by
  obtain ⟨c, classified, id, mac, read, first, wrong⟩ := forged
  have unverified : (keys.any fun k => k.secret ≠ [] && mac = verpMAC reader.signer k.secret id) = false := by
    rw [List.any_eq_false]
    intro k member verifies
    simp only [Bool.and_eq_true, decide_eq_true_eq] at verifies
    exact wrong k member verifies.1 verifies.2
  refine ⟨_, by rw [Reader.parseWithKeys, read], ?_, ?_⟩ <;>
    simp only [correlate, findSome_parseVERP, first, Option.map_some, unverified]

theorem parse_foreign (foreign : Foreign reader raw tenantID) :
    ∃ parsed, reader.parseWithKeys raw keys = .ok parsed ∧ parsed.correlation.tenantID ≠ [] ∧
      parsed.correlation.tenantID ≠ tenantID ∧ parsed.correlation.deliveryID ≠ [] := by
  obtain ⟨c, classified, read, named, other⟩ := foreign
  refine ⟨_, by rw [Reader.parseWithKeys, read], ?_⟩
  rw [correlate_named named]
  exact ⟨named, other, (correlate_tenant named).1⟩

variable {proc : Processor}

theorem handle_loads (ends : (proc.handle tenantID msg a).Ends (fun _ => Outage) p trace reply after) :
    ∃ settings, after = p.put tenantID { p.tenants tenantID with settings } ∨
      ∃ v later, v.tracking.signingKeys = keysInUse tenantID a (p.tenants tenantID) ∧
        (afterLoad proc tenantID msg a (.ok v)).Ends (fun _ => Outage)
          (p.put tenantID { p.tenants tenantID with settings }) later reply after := by
  obtain ⟨first, rest, loaded, store, rfl, loading, following⟩ := ends_bind ends
  obtain ⟨⟨settings, rfl⟩, _, usable⟩ := loadSettings_writes loading
  refine ⟨settings, ?_⟩
  cases loaded with
  | error e => exact .inl following.2.2
  | ok v => exact .inr ⟨v, rest, usable v rfl, following⟩

/-- Nothing but an unverified event of the tenant is new. -/
def Harmless (tenantID : Text) (before after : Provider) : Prop :=
  ∃ bounces, OnlyUnverified (before.tenants tenantID).bounces bounces ∧
    after = before.put tenantID { before.tenants tenantID with bounces }

theorem Harmless.refl (tenantID : Text) (p : Provider) : Harmless tenantID p p :=
  ⟨_, .inl rfl, ((forTenant tenantID).set_get p).symm⟩

variable {out : Outcome}

theorem record_unverified
    (ends : (proc.record tenantID settings out msg d a).Ends (fun _ => Outage) p trace reply after)
    (unverified : out.parsed.correlation.verified = false) : Harmless tenantID p after := by
  obtain ⟨later, ⟨rfl, created⟩ | ⟨rfl, failure, _, failed⟩⟩ := ends_invoke ends
  · have written : after = p.put tenantID ((p.tenants tenantID).bounceCreate a.bounceID
        (proc.bounceEvent settings out.parsed msg d a)).2 := by
      split at created <;> exact created.2.2
    rcases TenantStore.bounceCreate_writes
      (p.tenants tenantID) with same | ⟨id, row, fresh, verified, same⟩
    · rw [written, same]
      exact ⟨_, .inl rfl, rfl⟩
    · rw [written, same]
      exact ⟨_, .inr ⟨id, row, fresh, verified.trans unverified, rfl⟩, rfl⟩
  · obtain ⟨_, _, rfl⟩ := failed
    exact .refl tenantID _

theorem handleBounce_unverified (unverified : out.parsed.correlation.verified = false)
    (anonymous : out.parsed.correlation.tenantID = [])
    (ends : (proc.handleBounce tenantID settings out msg a).Ends (fun _ => Outage) p trace reply after) :
    Harmless tenantID p after := by
  simp only [Processor.handleBounce, anonymous, ne_eq, not_true_eq_false, unverified] at ends
  split at ends
  · exact record_unverified ends unverified
  obtain ⟨later, ⟨rfl, looked⟩ | ⟨rfl, failure, outage, failed⟩⟩ := ends_query ends
  · split at looked
    · split at looked
      · exact record_unverified looked unverified
      · obtain ⟨_, _, rfl⟩ := looked
        exact .refl tenantID _
    · exact record_unverified looked unverified
  · simp only [outage.ne (show ErrKind.notFound ≠ .other by decide)] at failed
    obtain ⟨_, _, rfl⟩ := failed
    exact .refl tenantID _

theorem handle_forged (forged : Forged reader msg.raw (keysInUse tenantID a (p.tenants tenantID)))
    (ends : ((reader.processor base).handle tenantID msg a).Ends (fun _ => Outage) p trace reply after) :
    ∃ settings bounces, OnlyUnverified (p.tenants tenantID).bounces bounces ∧
      after = p.put tenantID { p.tenants tenantID with settings, bounces } := by
  obtain ⟨settings, rfl | ⟨v, later, keys, following⟩⟩ := handle_loads ends
  · exact ⟨settings, _, .inl rfl, rfl⟩
  obtain ⟨parsed, read, unverified, anonymous⟩ := parse_forged forged
  have same : (reader.processor base).parseWithKeys msg.raw v.tracking.signingKeys = .ok parsed := by
    rw [keys]
    exact read
  have harmless : Harmless tenantID (p.put tenantID { p.tenants tenantID with settings }) after := by
    simp only [afterLoad, same] at following
    split_ifs at following
    · obtain ⟨_, _, rfl⟩ := following
      exact .refl tenantID _
    · obtain ⟨_, _, rfl⟩ := following
      exact .refl tenantID _
    · exact handleBounce_unverified unverified anonymous following
  obtain ⟨bounces, only, rfl⟩ := harmless
  rw [put_same] at only
  refine ⟨settings, bounces, only, ?_⟩
  rw [put_same]
  exact (forTenant tenantID).set_set ..

theorem handle_foreign (foreign : Foreign reader msg.raw tenantID)
    (ends : ((reader.processor base).handle tenantID msg a).Ends (fun _ => Outage) p trace reply after) :
    ∃ settings, after = p.put tenantID { p.tenants tenantID with settings } := by
  obtain ⟨settings, rfl | ⟨v, later, _, following⟩⟩ := handle_loads ends
  · exact ⟨settings, rfl⟩
  obtain ⟨parsed, read, named, other, identified⟩ := parse_foreign foreign
  have same : (reader.processor base).parseWithKeys msg.raw v.tracking.signingKeys = .ok parsed := read
  refine ⟨settings, ?_⟩
  simp only [afterLoad, same, Processor.handleBounce, named, other, ne_eq, not_false_eq_true, and_self,
    ↓reduceIte] at following
  split_ifs at following <;> exact following.2.2

end

/-- A message whose first return address verifies under no key leaves at most
an unverified event, one for another tenant only the settings row; and a delivery
reported in any number of messages leaves the sent status at most once, with at most
one event for that. -/
theorem forged_and_repeated_reports (reader : Reader) (base : Processor) :
    (∀ tenantID msg a p plan, (∀ n, ∀ e ∈ plan n, Outage e) →
      Forged reader msg.raw (keysInUse tenantID a (p.tenants tenantID)) →
        ∃ settings bounces, OnlyUnverified (p.tenants tenantID).bounces bounces ∧
          (((reader.processor base).handle tenantID msg a).run plan p).2 =
            p.put tenantID { p.tenants tenantID with settings, bounces }) ∧
      (∀ tenantID msg a p plan, (∀ n, ∀ e ∈ plan n, Outage e) → Foreign reader msg.raw tenantID →
        ∃ settings, (((reader.processor base).handle tenantID msg a).run plan p).2 =
          p.put tenantID { p.tenants tenantID with settings }) ∧
      ∀ (start pool : Pool Call Provider Err) moves, start.threads = [] →
        (handlings (reader.processor base)).run start moves = some pool →
          ∀ t id, (handlings (reader.processor base)).departures
              (fun pool => isSent id (pool.store.tenants t)) start moves ≤ 1 ∧
            announcements id (pool.store.tenants t) ≤ announcements id (start.store.tenants t) +
              (handlings (reader.processor base)).departures
                (fun pool => isSent id (pool.store.tenants t)) start moves := by
  refine ⟨fun tenantID msg a p plan outages forged => ?_, fun tenantID msg a p plan outages foreign => ?_,
    fun start pool moves idle ran t id => handlings_once idle ran t id⟩
  · exact handle_forged forged (ends_run (fun n e planned _ => outages n e planned) _ p)
  · exact handle_foreign foreign (ends_run (fun n e planned _ => outages n e planned) _ p)

def mailedStore : Provider :=
  emptyProvider.put (text "t1") {
    tenant := text "t1"
    deliveries := (∅ : Table Text Delivery).insert (text "d1")
      { id := text "d1", emailNorm := text "ada@example.com", status := .sent, lane := .bulk }
    settings := some (defaultTenantSettings (text "t1") { kid := text "k1", secret := text "s" } 0) }

/-- A report with a copied header.  With a return address it is a forged one. -/
def copiedReport (returnPath : Option Text) : Reader where
  syn := asciiMail
  signer := ⟨fun secret body => secret ++ body⟩
  read _ := .ok ({
      top := (text "X-Sendplane-Id", text "t1/d1") :: (returnPath.map (text "Return-Path", ·)).toList },
    { type := .hard, status := text "5.1.1" })

/-- Two attempts at the same report that both find the delivery sent. -/
def raceMoves : List (Move Handling Err) :=
  let next (thread : Nat) : Move Handling Err := .advance thread none
  [.spawn ⟨text "t1", {}, forgedAttempt⟩, .spawn ⟨text "t1", {}, { forgedAttempt with bounceID := text "b2" }⟩,
    next 0, next 0, next 0, next 1, next 1, next 1, next 1, next 0, next 1, next 1]

theorem reports_resisted :
    let forged := copiedReport (some (text "bounce+d1.00000000@b.example"))
    let race := handlings ((copiedReport none).processor plainProcessor)
    let sent := fun pool : Pool Call Provider Err => isSent (text "d1") (pool.store.tenants (text "t1"))
    (∃ settings bounces, OnlyUnverified (mailedStore.tenants (text "t1")).bounces bounces ∧
        (((forged.processor plainProcessor).handle (text "t1") {} forgedAttempt).exec mailedStore).2 =
          mailedStore.put (text "t1") { mailedStore.tenants (text "t1") with settings, bounces }) ∧
      (∃ settings,
        ((((copiedReport none).processor plainProcessor).handle (text "t2") {} forgedAttempt).exec mailedStore).2 =
          mailedStore.put (text "t2") { mailedStore.tenants (text "t2") with settings }) ∧
      ∃ pool, race.run ⟨mailedStore, []⟩ raceMoves = some pool ∧ sent ⟨mailedStore, []⟩ = true ∧ sent pool = false ∧
        race.departures sent ⟨mailedStore, []⟩ raceMoves ≤ 1 ∧
        announcements (text "d1") (pool.store.tenants (text "t1")) = 1 := by
  intro forged race sent
  have calm : ∀ n, ∀ e ∈ (fun _ => none : Nat → Option Err) n, Outage e := by simp
  have unsigned : Forged forged [] (keysInUse (text "t1") forgedAttempt (mailedStore.tenants (text "t1"))) :=
    ⟨_, _, text "d1", text "00000000", rfl, by decide +kernel, by decide +kernel⟩
  have other : Foreign (copiedReport none) [] (text "t2") := ⟨_, _, rfl, by decide +kernel, by decide +kernel⟩
  have final : (race.run ⟨mailedStore, []⟩ raceMoves).map (fun pool =>
      (sent pool, announcements (text "d1") (pool.store.tenants (text "t1")))) = some (false, 1) := by
    decide +kernel
  obtain ⟨pool, ran, same⟩ := Option.map_eq_some_iff.mp final
  obtain ⟨departed, announced⟩ := Prod.mk.inj same
  refine ⟨(forged_and_repeated_reports forged plainProcessor).1 _ _ _ _ _ calm unsigned,
    (forged_and_repeated_reports (copiedReport none) plainProcessor).2.1 _ _ _ _ _ calm other,
    pool, ran, by decide +kernel, departed, ?_, announced⟩
  exact ((forged_and_repeated_reports (copiedReport none) plainProcessor).2.2 _ _ _ rfl ran _ _).1

end Sendplane.Bounce
