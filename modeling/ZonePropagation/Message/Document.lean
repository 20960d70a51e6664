import ZonePropagation.Json
import ZonePropagation.Message
import ZonePropagation.Octets.Hex
/-!
JSON documents of messages.

Codes are numbers, names are lists of labels, and octets are hexadecimal text.  A member that is
absent reads as zero, false or empty, and the type and class of a record as one.
-/

namespace ZonePropagation

namespace Json

/-- The octets that a member spells in hexadecimal. -/
def octetsAt (json : Json) (name : String) : Octets :=
  (Octets.ofHex? (json.textAt name)).getD #[]

def hex (octets : List UInt8) : Json := .str (Octets.toHex octets)

end Json

def Header.ofJson (json : Json) : Header where
  id := (json.natAt "id").toUInt16
  qr := json.flagAt "qr"
  opcode := (json.natAt "opcode").toUInt8
  aa := json.flagAt "aa"
  tc := json.flagAt "tc"
  rd := json.flagAt "rd"
  ra := json.flagAt "ra"
  z := (json.natAt "z").toUInt8
  rcode := (json.natAt "rcode").toUInt8
  qdcount := (json.natAt "qdcount").toUInt16
  ancount := (json.natAt "ancount").toUInt16
  nscount := (json.natAt "nscount").toUInt16
  arcount := (json.natAt "arcount").toUInt16

def Header.toJson (header : Header) : Json := .obj [
  ("id", .nat header.id.toNat), ("qr", .bool header.qr), ("opcode", .nat header.opcode.toNat),
  ("aa", .bool header.aa), ("tc", .bool header.tc), ("rd", .bool header.rd),
  ("ra", .bool header.ra), ("z", .nat header.z.toNat), ("rcode", .nat header.rcode.toNat),
  ("qdcount", .nat header.qdcount.toNat), ("ancount", .nat header.ancount.toNat),
  ("nscount", .nat header.nscount.toNat), ("arcount", .nat header.arcount.toNat)]

def Question.ofJson (json : Json) : Question where
  labels := json.textsAt "labels"
  type := ⟨(json.natOr "type" 1).toUInt16⟩
  recordClass := ⟨(json.natOr "class" 1).toUInt16⟩

def Question.toJson (question : Question) : Json := .obj [
  ("labels", .strings question.labels), ("type", .nat question.type.code.toNat),
  ("class", .nat question.recordClass.code.toNat)]

def Authority.ofJson (json : Json) : Authority where
  mname := json.textsAt "mname"
  rname := json.textsAt "rname"
  serial := (json.natAt "serial").toUInt32
  refresh := (json.natAt "refresh").toUInt32
  retry := (json.natAt "retry").toUInt32
  expire := (json.natAt "expire").toUInt32
  minimum := (json.natAt "minimum").toUInt32

def Authority.toJson (authority : Authority) : Json := .obj [
  ("mname", .strings authority.mname), ("rname", .strings authority.rname),
  ("serial", .nat authority.serial.toNat), ("refresh", .nat authority.refresh.toNat),
  ("retry", .nat authority.retry.toNat), ("expire", .nat authority.expire.toNat),
  ("minimum", .nat authority.minimum.toNat)]

/-- Reads the data of a record: a start of authority, one octet repeated, or octets. -/
def RecordData.ofJson (json : Json) : RecordData :=
  match (json.get "soa").present?, (json.get "raw_repeat").items.filterMap Json.nat? with
  | some authority, _ => .soa (.ofJson authority)
  | none, [octet, count] => .raw (List.replicate count octet.toUInt8)
  | none, _ => .raw (json.octetsAt "raw").toList

def RecordData.toMember : RecordData → String × Json
  | .raw octets => ("raw", .hex octets)
  | .soa authority => ("soa", authority.toJson)

def ResourceRecord.ofJson (json : Json) : ResourceRecord where
  labels := json.textsAt "labels"
  type := ⟨(json.natOr "type" 1).toUInt16⟩
  recordClass := ⟨(json.natOr "class" 1).toUInt16⟩
  ttl := (json.natAt "ttl").toUInt32
  data := .ofJson json

/-- The document of a record around its data. -/
def ResourceRecord.toJsonWith (data : String × Json) (record : ResourceRecord) : Json := .obj [
  ("labels", .strings record.labels), ("type", .nat record.type.code.toNat),
  ("class", .nat record.recordClass.code.toNat), ("ttl", .nat record.ttl.toNat), data]

def ResourceRecord.toJson (record : ResourceRecord) : Json :=
  record.toJsonWith record.data.toMember

namespace Message

def sectionsOfJson (json : Json) (header : Header) (questions : List Question) : Message where
  header
  questions
  answers := (json.get "answers").items.map .ofJson
  authorities := (json.get "authorities").items.map .ofJson
  additionals := (json.get "resources").items.map .ofJson

def ofJson (json : Json) : Message :=
  sectionsOfJson json (.ofJson (json.get "header")) ((json.get "questions").items.map .ofJson)

/-- The document of a message, given that of each record. -/
def toJsonWith (each : ResourceRecord → Json) (message : Message) : Json := .obj [
  ("header", message.header.toJson),
  ("questions", .arr (message.questions.map Question.toJson)),
  ("answers", .arr (message.answers.map each)),
  ("authorities", .arr (message.authorities.map each)),
  ("resources", .arr (message.additionals.map each))]

def toJson : Message → Json := toJsonWith ResourceRecord.toJson

end Message

end ZonePropagation
