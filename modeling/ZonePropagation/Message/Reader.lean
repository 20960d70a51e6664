import ZonePropagation.Message
import ZonePropagation.Name.Wire
/-!
Reading messages.

Every part is read at an offset and gives the offset after it.  Octets after the last record are
ignored.  A question that cannot be read makes the question section invalid; a record keeps the
cause when it is a truncation, a compression loop or a bad label.
-/

namespace ZonePropagation

def readUInt16 (octets : Octets) (offset : Nat) : Except MessageError UInt16 :=
  match Octets.uint16At? octets offset with
  | some value => .ok value
  | none => .error .truncated

def readUInt32 (octets : Octets) (offset : Nat) : Except MessageError UInt32 :=
  match Octets.uint32At? octets offset with
  | some value => .ok value
  | none => .error .truncated

def Header.size : Nat := 12

/-- The header the twelve octets at `offset` hold, when they are inside. -/
def Header.read? (octets : Octets) (offset : Nat) : Option Header := do
  let id ← Octets.uint16At? octets offset
  let upper ← octets[offset + 2]?
  let lower ← octets[offset + 3]?
  let qdcount ← Octets.uint16At? octets (offset + 4)
  let ancount ← Octets.uint16At? octets (offset + 6)
  let nscount ← Octets.uint16At? octets (offset + 8)
  let arcount ← Octets.uint16At? octets (offset + 10)
  return {
    id
    qr := upper &&& 128 != 0
    opcode := (upper >>> 3) &&& 15
    aa := upper &&& 4 != 0
    tc := upper &&& 2 != 0
    rd := upper &&& 1 != 0
    ra := lower &&& 128 != 0
    z := (lower >>> 4) &&& 7
    rcode := lower &&& 15
    qdcount, ancount, nscount, arcount }

def Header.read (octets : Octets) (offset : Nat) : Except MessageError (Header × Nat) :=
  match Header.read? octets offset with
  | some header => .ok (header, offset + Header.size)
  | none => .error .header

def Question.read (octets : Octets) (offset : Nat) : Except MessageError (Question × Nat) := do
  let (labels, after) ← Name.read octets offset
  let type ← readUInt16 octets after
  let recordClass ← readUInt16 octets (after + 2)
  return ({ labels, type := ⟨type⟩, recordClass := ⟨recordClass⟩ }, after + 4)

def Authority.read (octets : Octets) (offset : Nat) : Except MessageError (Authority × Nat) := do
  let (mname, afterFirst) ← Name.read octets offset
  let (rname, after) ← Name.read octets afterFirst
  let serial ← readUInt32 octets after
  let refresh ← readUInt32 octets (after + 4)
  let retry ← readUInt32 octets (after + 8)
  let expire ← readUInt32 octets (after + 12)
  let minimum ← readUInt32 octets (after + 16)
  return ({ mname, rname, serial, refresh, retry, expire, minimum }, after + 20)

def RecordData.read (octets : Octets) (type : RecordType) (start stop : Nat) :
    Except MessageError RecordData :=
  if type = .soa then do
    let (authority, consumed) ← Authority.read octets start
    if consumed = stop then return .soa authority else throw .answerSection
  else .ok (.raw (octets.extract start stop).toList)

def ResourceRecord.read (octets : Octets) (offset : Nat) :
    Except MessageError (ResourceRecord × Nat) := do
  let (labels, after) ← Name.read octets offset
  let type ← readUInt16 octets after
  let recordClass ← readUInt16 octets (after + 2)
  let ttl ← readUInt32 octets (after + 4)
  let length ← readUInt16 octets (after + 8)
  let start := after + 10
  let stop := start + length.toNat
  if stop > octets.size then throw .truncated
  let data ← RecordData.read octets ⟨type⟩ start stop
  return ({ labels, type := ⟨type⟩, recordClass := ⟨recordClass⟩, ttl, data }, stop)

/-- Reads `count` parts one after the other; `done` holds those before, latest first. -/
def readMany {α : Type} (readOne : Nat → Except MessageError (α × Nat)) :
    (count : Nat) → (offset : Nat) → (done : List α) → Except MessageError (List α × Nat)
  | 0, offset, done => .ok (done.reverse, offset)
  | count + 1, offset, done =>
      match readOne offset with
      | .error error => .error error
      | .ok (part, next) => readMany readOne count next (part :: done)

def readQuestion (octets : Octets) (offset : Nat) : Except MessageError (Question × Nat) :=
  (Question.read octets offset).mapError fun _ => .questionSection

/-- The cause reported for a record of the section whose own cause is `section`. -/
def MessageError.inSection (invalid : MessageError) : MessageError → MessageError
  | .truncated => .truncated
  | .compressionLoop => .compressionLoop
  | .label => .label
  | _ => invalid

def readRecord (invalid : MessageError) (octets : Octets) (offset : Nat) :
    Except MessageError (ResourceRecord × Nat) :=
  (ResourceRecord.read octets offset).mapError invalid.inSection

def Message.read (octets : Octets) : Except MessageError Message := do
  let (header, offset) ← Header.read octets 0
  let (questions, offset) ← readMany (readQuestion octets) header.qdcount.toNat offset []
  let (answers, offset) ←
    readMany (readRecord .answerSection octets) header.ancount.toNat offset []
  let (authorities, offset) ←
    readMany (readRecord .authoritySection octets) header.nscount.toNat offset []
  let (additionals, _) ←
    readMany (readRecord .additionalSection octets) header.arcount.toNat offset []
  return { header, questions, answers, authorities, additionals }

end ZonePropagation
