import Sendplane.Api.Campaigns
import Sendplane.Ingest.Ingest

namespace Sendplane.Control

open Data Store Memstore

/-- The operations that run side by side on one tenant, with any arguments. -/
inductive Operation where
  | start (now : Time) (newID : Nat → Text) (id : Text) (time : Time)
  | pause (now : Time) (newID : Nat → Text) (id : Text)
  | resume (now : Time) (newID : Nat → Text) (id : Text)
  | cancel (now : Time) (newID : Nat → Text) (id : Text)
  | retry (now : Time) (chunk : Nat) (newID : Nat → Text) (id : Text) (filter : RetryFilter)
  | scheduler (now : Time) (newID : Nat → Text) (pageSize : Int) (pages : Nat)
  | finalizer (config : FinalizerConfig) (now : Time) (newID : Nat → Text) (f : Finalizer) (pages : Nat)
  | updateCampaign (id : Text) (body : Api.CampaignUpdate)
  | ingest (ing : Ingest.Ingester) (now : Time) (campaignID chunkKey : Text) (lines : List Ingest.Line)
  | claim (req : ClaimRequest)
  | complete (newID : Nat → Text) (results : List DeliveryResult)
  | markSent (id owner messageID : Text) (time : Time)
  | releaseExpiredLeases (now : Time) (limit : Int)
  | passTime (clock : Time)

def program : Operation → Proc Unit
  | .start now newID id time => Prog.discard (startCampaign now newID id time)
  | .pause now newID id => Prog.discard (pauseCampaign now newID id)
  | .resume now newID id => Prog.discard (resumeCampaign now newID id)
  | .cancel now newID id => Prog.discard (cancelCampaign now newID id)
  | .retry now chunk newID id filter => Prog.discard (retryCampaign now chunk newID id filter)
  | .scheduler now newID pageSize pages => Prog.discard (schedulerTick now newID pageSize pages)
  | .finalizer config now newID f pages => Prog.discard (finalizerTick config now newID f pages)
  | .updateCampaign id body => Prog.discard (Api.updateCampaign id body)
  | .ingest ing now campaignID chunkKey lines =>
      Prog.discard (Ingest.ingest ing now campaignID chunkKey lines)
  | .claim req => Prog.discard (Prog.invoke ⟨.sender, .claim⟩ (TenantStore.deliveryClaim req))
  | .complete newID results =>
      Prog.discard (Prog.invoke ⟨.sender, .complete⟩ (TenantStore.deliveryComplete newID results))
  | .markSent id owner messageID time =>
      Prog.discard (Prog.invoke ⟨.sender, .markSent⟩ (TenantStore.deliveryMarkSent id owner messageID time))
  | .releaseExpiredLeases now limit =>
      Prog.discard (Prog.invoke ⟨.sender, .releaseExpiredLeases⟩
        (TenantStore.deliveryReleaseExpiredLeases now limit))
  | .passTime clock =>
      Prog.discard (Prog.invoke ⟨.sender, .read⟩ (TenantStore.passTime clock))

abbrev Workers := Pool Tag TenantStore Err

/-- Every campaign is stored under its ID. -/
def Keyed (s : TenantStore) : Prop :=
  ∀ (id : Text) (c : Campaign), s.campaigns[id]? = some c → c.id = id

theorem keyed_of_single {id : Text} (single : s.campaigns = (∅ : Table Text Campaign).insert id c) (own : c.id = id) :
    Keyed s := by
  intro key row stored
  rw [single] at stored
  obtain ⟨rfl, rfl⟩ := Table.eq_of_get_single stored
  exact own

end Sendplane.Control
