import Sendplane.Api.Rejection
import Sendplane.Control.Outbox
import Sendplane.Data.Utf8
import Sendplane.Probe.Run

namespace Sendplane.Store

open Data.Strings Control.Outbox List

theorem validUTF8_text (literal : String) : ValidUTF8 (text literal) :=
  literal.isValidUTF8

/-- Each of the three keeps a text valid exactly if it cuts it between two characters. -/
theorem truncations_valid_iff (srv : Api.Server) (r : Probe.Runner) (run : ProbeRun) (ev : Probe.Evidence)
    (report : Option Probe.Report) (now : Time) (ua message headers : String) :
    (ValidUTF8 (Api.Server.summarizeUA { srv with trimSpace } (text ua)) ↔
      CutsWhole Api.maxUABytes (trimSpace (text ua))) ∧
    (ValidUTF8 (truncateErr (text message)) ↔ CutsWhole maxOutboxErrLen (text message)) ∧
    (ValidUTF8 (Probe.completedRun r run { ev with rawHeaders := text headers } report now).rawHeaders ↔
      CutsWhole Probe.maxRawHeaders (text headers)) := by
  refine ⟨(validUTF8_text ua).trimSpace.take_iff _, ?_, (validUTF8_text headers).take_iff _⟩
  rw [← (validUTF8_text message).take_iff, truncateErr]
  split
  · exact ⟨fun valid => valid.parts_iff.mpr (validUTF8_text _), fun valid => valid.append (validUTF8_text _)⟩
  · rw [take_of_length_le (by omega)]

/-- The last character of the user agent is cut in two. -/
theorem long_agent_invalid : ¬ValidUTF8 (Api.Server.summarizeUA { Api.pixelServer with trimSpace }
    (text (String.ofList (replicate 159 'a' ++ ['é'])))) := by
  decide +kernel

end Sendplane.Store
