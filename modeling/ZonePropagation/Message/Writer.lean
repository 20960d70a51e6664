import ZonePropagation.Message
import ZonePropagation.Name.Wire
/-!
Writing messages.  The four counts are those of the sections, and names are not compressed.
-/

namespace ZonePropagation

def flagBit (flag : Bool) (weight : UInt8) : UInt8 :=
  if flag then weight else 0

/-- Writes a header; its three narrow fields must fit their bits. -/
def Header.write (header : Header) : Except MessageError (List UInt8) :=
  if header.opcode < 16 ∧ header.z < 8 ∧ header.rcode < 16 then
    let upper := flagBit header.qr 128 ||| (header.opcode <<< 3) ||| flagBit header.aa 4 |||
      flagBit header.tc 2 ||| flagBit header.rd 1
    let lower := flagBit header.ra 128 ||| (header.z <<< 4) ||| header.rcode
    .ok (Octets.ofUInt16 header.id ++ [upper, lower] ++ Octets.ofUInt16 header.qdcount ++
      Octets.ofUInt16 header.ancount ++ Octets.ofUInt16 header.nscount ++
      Octets.ofUInt16 header.arcount)
  else .error .fieldTooWide

def Question.write (question : Question) : Except MessageError (List UInt8) := do
  let name ← Name.write question.labels
  return name ++ Octets.ofUInt16 question.type.code ++
    Octets.ofUInt16 question.recordClass.code

def RecordData.write : RecordData → Except MessageError (List UInt8)
  | .raw octets => .ok octets
  | .soa authority => do
      let mname ← Name.write authority.mname
      let rname ← Name.write authority.rname
      return mname ++ rname ++ Octets.ofUInt32 authority.serial ++
        Octets.ofUInt32 authority.refresh ++ Octets.ofUInt32 authority.retry ++
        Octets.ofUInt32 authority.expire ++ Octets.ofUInt32 authority.minimum

def maxDataOctets : Nat := 65535

def ResourceRecord.write (record : ResourceRecord) : Except MessageError (List UInt8) := do
  let data ← record.data.write
  if data.length > maxDataOctets then throw .answerSection
  let name ← Name.write record.labels
  return name ++ Octets.ofUInt16 record.type.code ++ Octets.ofUInt16 record.recordClass.code ++
    Octets.ofUInt32 record.ttl ++ Octets.ofUInt16 data.length.toUInt16 ++ data

/-- The header of a message with the counts of its sections, each modulo 65536. -/
def Message.countedHeader (message : Message) : Header :=
  { message.header with
    qdcount := message.questions.length.toUInt16
    ancount := message.answers.length.toUInt16
    nscount := message.authorities.length.toUInt16
    arcount := message.additionals.length.toUInt16 }

def Message.write (message : Message) : Except MessageError (List UInt8) := do
  let header ← message.countedHeader.write
  let questions ← message.questions.mapM Question.write
  let answers ← message.answers.mapM ResourceRecord.write
  let authorities ← message.authorities.mapM ResourceRecord.write
  let additionals ← message.additionals.mapM ResourceRecord.write
  return header ++ questions.flatten ++ answers.flatten ++ authorities.flatten ++
    additionals.flatten

end ZonePropagation
