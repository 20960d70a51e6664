import ZonePropagation.Message.Document
import ZonePropagation.Probe.Script
/-!
JSON documents of probes, and of nameservers that answer by a script.
-/

namespace ZonePropagation

def Outcome.plain : List Outcome :=
  [.ok, .notAuthoritative, .timeout, .malformed, .socketRetry, .socketFatal]

def Outcome.ofJson : Json → Outcome
  | .obj [("no-domain", code)] =>
      .noDomain ((ResponseCode.ofCode? (code.nat?.getD 0).toUInt8).getD .nameError)
  | .obj [("rejected", code)] => .rejected (code.nat?.getD 0).toUInt8
  | json => (plain.find? fun outcome => json.string? == some outcome.label).getD .ok

def Probe.toJson (probe : Probe) : Json := .obj [
  ("outcome", .str probe.outcome.text),
  ("serial", Json.ofOption (fun serial => .nat serial.toNat) probe.serial),
  ("attempts", .nat probe.attempts)]

def ScriptedReply.ofJson (json : Json) : ScriptedReply :=
  match (json.get "hex").string? with
  | some _ => .verbatim (json.octetsAt "hex").toList (json.flagOr "patch_id" true)
  | none =>
      let header := { Header.ofJson json with
        qr := json.flagOr "qr" true
        aa := json.flagOr "aa" true }
      let questions := (json.get "questions").present?.map fun questions =>
        questions.items.map Question.ofJson
      .response (Message.sectionsOfJson json header [])
        ((json.get "opcode").nat?.map Nat.toUInt8) questions (((json.get "id_delta").int?).getD 0)

def ScriptedStep.ofJson (json : Json) : ScriptedStep where
  sends := (json.get "send").items.map fun send =>
    (ScriptedReply.ofJson send, (send.get "declared").nat?)
  silent := json.flagAt "silent"

def ScriptedServer.ofJson (json : Json) : ScriptedServer :=
  let script (name : String) : Option (List ScriptedStep) :=
    (json.get name).present?.map fun steps => steps.items.map ScriptedStep.ofJson
  { datagrams := script "udp", connections := script "tcp" }

/-- The document of a request.  The id of a request is of no account, and of a signature only the
length is told. -/
def ScriptedServer.requestToJson (request : Via × Message) : Json :=
  let each (record : ResourceRecord) : Json :=
    match record.data, record.type == .tsig, record.toJson with
    | .raw octets, true, .obj members => .obj (members.map fun member =>
        if member.1 == "raw" then ("raw", .obj [("length", .nat octets.length)]) else member)
    | _, _, encoded => encoded
  let message := { request.2 with header := { request.2.header with id := 0 } }
  .obj [("via", .str request.1.text), ("packet", Message.toJsonWith each message)]

/-- The documents of the requests a server received, in the order of their arrival. -/
def ScriptedServer.requestsToJson (server : ScriptedServer) : Json :=
  .arr (server.requests.reverse.map requestToJson)

end ZonePropagation
