import ZonePropagation.Message
/-!
Requests about a zone, the responses to them, and what a response says.

The message id is the caller's.  A response matches a request by its response flag, id, operation
and, when both ask something, by the type and name of the first question.
-/

namespace ZonePropagation

namespace Message

def request (id : UInt16) (opcode : UInt8) (zone : String) (type : RecordType) : Message :=
  { header := { id, opcode, qdcount := 1 }
    questions := [{ labels := Name.labels zone, type, recordClass := .internet }] }

def notify (id : UInt16) (zone : String) : Message :=
  let message := request id Opcode.notify zone .soa
  { message with header := { message.header with aa := true } }

def soaQuery (id : UInt16) (zone : String) : Message :=
  request id Opcode.query zone .soa

def axfrQuery (id : UInt16) (zone : String) : Message :=
  request id Opcode.query zone .axfr

def response (message : Message) (code : ResponseCode) (authoritative : Bool) : Message :=
  { header := {
      id := message.header.id
      qr := true
      opcode := message.header.opcode
      aa := authoritative
      rcode := code.code
      qdcount := message.questions.length.toUInt16 }
    questions := message.questions }

def responseCode? (message : Message) : Option ResponseCode :=
  ResponseCode.ofCode? message.header.rcode

def questionName? (message : Message) : Option String :=
  message.questions.head?.map fun question => Name.text question.labels

/-- The serial of the first start of authority among the answers whose owner is the zone. -/
def soaSerial? (message : Message) (zone : String) : Option UInt32 :=
  message.answers.findSome? fun record =>
    if record.type = .soa ∧ Name.sameName record.owner zone then
      record.authority?.map Authority.serial
    else none

/-- The two first questions, where both are present, ask the same. -/
def sameQuestion (received sent : Message) : Bool :=
  match received.questions.head?, sent.questions.head? with
  | some got, some asked =>
      got.type == asked.type && Name.sameName (Name.text got.labels) (Name.text asked.labels)
  | _, _ => true

def answersRequest (message request : Message) : Bool :=
  message.header.qr && message.header.id == request.header.id &&
    message.header.opcode == request.header.opcode && message.sameQuestion request

end Message

end ZonePropagation
