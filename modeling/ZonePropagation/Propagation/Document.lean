import ZonePropagation.Fault.Document
import ZonePropagation.Pool.Document
import ZonePropagation.Propagation.Program
/-!
JSON documents of what came of operations.
-/

namespace ZonePropagation

def Progress.toJson : Progress → Json
  | .verifying => .str "Verifying"
  | .backendsFailed => .str "BackendFailed"
  | .decided status => .obj [("ConsensusReached", .str status.text)]

def TickSummary.toJson (summary : TickSummary) : Json := .obj [
  ("processed", .nat summary.processed), ("failed", .nat summary.failed),
  ("reaped", .nat summary.reaped)]

def TargetSerial.toJson (found : TargetSerial) : Json :=
  let serial := match found.serial with
    | .ok serial => Json.ofOption (fun serial => .nat serial.toNat) serial
    | .error reason => bareFailureJson reason
  .obj [("target", .str found.target), ("type", .str found.backendType), ("serial", serial)]

def Propagation.Result.toJson : Propagation.Result → Json
  | .finished _ => .str "ok"
  | .stored outcome => Fault.answerJson (fun _ => .str "ok") outcome
  | .recorded outcome => Fault.answerJson (fun verdict =>
      .obj [("consensus", Json.ofOption Verdict.toJson verdict)]) outcome
  | .attempted outcome => Fault.answerJson Progress.toJson outcome
  | .ticked outcome => Fault.answerJson TickSummary.toJson outcome
  | .together results => .obj [("ok", .nat (results.countP Result.isSuccess))]

end ZonePropagation
