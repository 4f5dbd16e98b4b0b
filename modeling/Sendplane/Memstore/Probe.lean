import Sendplane.Memstore.Tenant

namespace Sendplane.Memstore

open Data Store

def senderMeta : Meta Sender where
  id := ⟨Sender.id, fun v id => { v with id }⟩
  tenant := ⟨Sender.tenantID, fun v tenantID => { v with tenantID }⟩
  version := some ⟨Sender.version, fun v version => { v with version }⟩
  created := ⟨Sender.createdAt, fun v createdAt => { v with createdAt }⟩
  updated := some ⟨Sender.updatedAt, fun v updatedAt => { v with updatedAt }⟩
  truncateRow v := { v with
    createdAt := truncateTime v.createdAt
    updatedAt := truncateTime v.updatedAt
    healthCheckedAt := truncateTime v.healthCheckedAt }

/-- Probe runs take no part in optimistic concurrency. -/
def probeRunMeta : Meta ProbeRun where
  id := ⟨ProbeRun.id, fun v id => { v with id }⟩
  tenant := ⟨ProbeRun.tenantID, fun v tenantID => { v with tenantID }⟩
  version := none
  created := ⟨ProbeRun.createdAt, fun v createdAt => { v with createdAt }⟩
  updated := none
  truncateRow v := { v with
    createdAt := truncateTime v.createdAt
    startedAt := truncateTime v.startedAt
    receivedAt := truncateTime v.receivedAt }

namespace TenantStore

def senderUpdate (v : Sender) (s : TenantStore) : Except Err Sender × TenantStore :=
  let (reply, senders) := update senderMeta s.tenant s.now s.senders v
  (reply, { s with senders })

def probeRunGet (id : Text) (s : TenantStore) : Except Err ProbeRun :=
  find s.probeRuns id

def probeRunUpdate (v : ProbeRun) (s : TenantStore) : Except Err ProbeRun × TenantStore :=
  let (reply, probeRuns) := update probeRunMeta s.tenant s.now s.probeRuns v
  (reply, { s with probeRuns })

def probeRunListBySender (senderID : Text) (page : Page) (s : TenantStore) :
    Except Err (Result ProbeRun) :=
  .ok (paginate s.probeRuns page fun v => v.senderID = senderID)

def probeRunListPending (page : Page) (s : TenantStore) : Except Err (Result ProbeRun) :=
  .ok (paginate s.probeRuns page fun v => v.pending)

def probeMailboxGet (id : Text) (s : TenantStore) : Except Err ProbeMailbox :=
  find s.probeMailboxes id

def probeMailboxList (page : Page) (s : TenantStore) : Except Err (Result ProbeMailbox) :=
  .ok (paginate s.probeMailboxes page fun _ => true)

def truncateHealth (h : MailboxHealth) : MailboxHealth :=
  { h with checkedAt := truncateTime h.checkedAt, lastOKAt := truncateTime h.lastOKAt }

def probeMailboxUpdateHealth (id : Text) (h : MailboxHealth) (s : TenantStore) :
    Except Err Unit × TenantStore :=
  match s.probeMailboxes[id]? with
  | none => (.error (.wrap .notFound (text "probe mailbox " ++ id)), s)
  | some _ =>
      (.ok (), { s with
        probeMailboxes := s.probeMailboxes.modify id fun m => { m with health := truncateHealth h } })

end TenantStore

end Sendplane.Memstore
