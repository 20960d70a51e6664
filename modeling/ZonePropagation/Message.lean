import ZonePropagation.Message.Codes
import ZonePropagation.Name
/-!
DNS messages: a header, questions, and three sections of records.

The data of a start of authority is kept in its parts, every other data as octets.
-/

namespace ZonePropagation

/-- The fixed part of a message.  `z` and the codes are narrower on the wire than here. -/
structure Header where
  id : UInt16 := 0
  qr : Bool := false
  opcode : UInt8 := 0
  aa : Bool := false
  tc : Bool := false
  rd : Bool := false
  ra : Bool := false
  z : UInt8 := 0
  rcode : UInt8 := 0
  qdcount : UInt16 := 0
  ancount : UInt16 := 0
  nscount : UInt16 := 0
  arcount : UInt16 := 0
deriving DecidableEq, Repr, Inhabited

structure Question where
  labels : List String
  type : RecordType
  recordClass : RecordClass
deriving DecidableEq, Repr, Inhabited

structure Authority where
  mname : List String := []
  rname : List String := []
  serial : UInt32 := 0
  refresh : UInt32 := 0
  retry : UInt32 := 0
  expire : UInt32 := 0
  minimum : UInt32 := 0
deriving DecidableEq, Repr, Inhabited

inductive RecordData where
  | soa (authority : Authority)
  | raw (octets : List UInt8)
deriving DecidableEq, Repr, Inhabited

/-- A record of one of the three sections. -/
structure ResourceRecord where
  labels : List String
  type : RecordType
  recordClass : RecordClass
  ttl : UInt32
  data : RecordData
deriving DecidableEq, Repr, Inhabited

def ResourceRecord.authority? (record : ResourceRecord) : Option Authority :=
  match record.data with
  | .soa authority => some authority
  | .raw _ => none

def ResourceRecord.owner (record : ResourceRecord) : String :=
  Name.text record.labels

structure Message where
  header : Header := {}
  questions : List Question := []
  answers : List ResourceRecord := []
  authorities : List ResourceRecord := []
  additionals : List ResourceRecord := []
deriving DecidableEq, Repr, Inhabited

end ZonePropagation
