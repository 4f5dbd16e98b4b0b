import Sendplane.Control.Campaign

namespace Sendplane.Api

open Data Store Memstore Control

/-- The body of an edit request.  `resolve` is what the lookups and policy
hooks of the request answer on a store: the template and version to record, or
the reason to refuse. -/
structure CampaignUpdate where
  name : Text
  senderID : Text
  defaultLocale : Text
  tenantVars : Vars
  vars : Vars
  scheduleAt : Time
  version : Int
  resolve : TenantStore → Except Err (Text × Text)

def applyCampaign (c : Campaign) (body : CampaignUpdate) : Proc (Except Err Campaign) := do
  match ← Prog.query ⟨.updateCampaign, .read⟩ body.resolve with
  | .error e => return .error e
  | .ok (templateID, versionID) =>
      return .ok { c with
        name := body.name, templateID, versionID, senderID := body.senderID,
        defaultLocale := body.defaultLocale, tenantVars := body.tenantVars, vars := body.vars,
        scheduleAt := body.scheduleAt }

/-- Get, edit, update: the version that guards the update is the client's, not
the one of the row the handler has read. -/
def updateCampaign (id : Text) (body : CampaignUpdate) : Proc (Except Err Campaign) := do
  match ← getCampaign .updateCampaign id with
  | .error e => return .error e
  | .ok c =>
      if c.status ≠ .draft ∧ c.status ≠ .scheduled then
        return .error ⟨.invalidState,
          text "campaign " ++ c.id ++ text " is " ++ c.status.name ++ text " and cannot be edited"⟩
      else match ← applyCampaign c body with
        | .error e => return .error e
        | .ok edited =>
            Control.updateCampaign .updateCampaign c { edited with version := body.version }

end Sendplane.Api
