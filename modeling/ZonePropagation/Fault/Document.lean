import ZonePropagation.Fault.Diagnostic
import ZonePropagation.Json
import ZonePropagation.Signature
/-!
JSON documents of failures: a label and the wording.  A failure whose wording comes from a database,
a cache, the system or the syntax of a file is known by its label alone.
-/

namespace ZonePropagation

def failureJson (label wording : String) : Json := .obj [
  ("error", .str label), ("message", .str wording)]

/-- The document of a failure that is known by its label alone. -/
def bareFailureJson (label : String) : Json := .obj [("error", .str label)]

def SettingsError.toJson (error : SettingsError) : Json :=
  match error with
  | .unparsable => bareFailureJson error.label
  | _ => failureJson error.label error.message

def Fault.toJson (fault : Fault) : Json :=
  match fault with
  | .io _ | .database _ | .cache _ => bareFailureJson fault.label
  | .settings cause => cause.toJson
  | _ => failureJson fault.label fault.message

def MessageError.toJson (error : MessageError) : Json :=
  let label := match error with
    | .header => "InvalidHeader"
    | .label => "InvalidLabel"
    | .questionSection => "InvalidQuestionSection"
    | .answerSection => "InvalidAnswerSection"
    | .authoritySection => "InvalidAuthoritySection"
    | .additionalSection => "InvalidAdditionalSection"
    | .truncated => "Truncated"
    | .compressionLoop => "CompressionLoop"
    | .fieldTooWide => "InvalidBitStream"
  failureJson label error.message

def SignatureError.toJson (error : SignatureError) : Json :=
  let label := match error with
    | .unknownAlgorithm _ => "UnknownAlgorithm"
    | .secret _ => "DecodeError"
    | .message _ => "Encode"
  failureJson label error.text

/-- The document of an answer that may be a failure of the manager. -/
def Fault.answerJson {α : Type} (encode : α → Json) : Except Fault α → Json
  | .ok value => encode value
  | .error fault => fault.toJson

end ZonePropagation
