import ZonePropagation.Octets
import ZonePropagation.Status.Record
/-!
The binary form of status records.

Integers have variable length: up to 250 in one octet, otherwise a width mark and two, four or
eight octets, least significant first.  Strings carry their length, an enumeration its index, and
an optional value a tag.  Parts follow each other without separators; reading takes a part from
the front and leaves the rest.
-/

namespace ZonePropagation.Status.Encoding

/-- The octets of a number in the given width, least significant first. -/
def littleEndian : (width : Nat) → (value : Nat) → List UInt8
  | 0, _ => []
  | width + 1, value => value.toUInt8 :: littleEndian width (value / 256)

/-- The number that octets spell, least significant first. -/
def ofLittleEndian : List UInt8 → Nat
  | [] => 0
  | octet :: rest => octet.toNat + 256 * ofLittleEndian rest

def writeNat (value : Nat) : List UInt8 :=
  if value < 251 then [value.toUInt8]
  else if value < Nat.pow 2 16 then 251 :: littleEndian 2 value
  else if value < Nat.pow 2 32 then 252 :: littleEndian 4 value
  else 253 :: littleEndian 8 value

/-- Takes octets off the front, when there are enough. -/
def take? (count : Nat) (octets : List UInt8) : Option (List UInt8 × List UInt8) :=
  if count ≤ octets.length then some (octets.take count, octets.drop count) else none

def readWidth? (width : Nat) (octets : List UInt8) : Option (Nat × List UInt8) :=
  (take? width octets).map fun read => (ofLittleEndian read.1, read.2)

def readNat? (widest : Nat) : List UInt8 → Option (Nat × List UInt8)
  | [] => none
  | mark :: rest =>
      if mark < 251 then some (mark.toNat, rest)
      else if mark = 251 ∧ 2 ≤ widest then readWidth? 2 rest
      else if mark = 252 ∧ 4 ≤ widest then readWidth? 4 rest
      else if mark = 253 ∧ 8 ≤ widest then readWidth? 8 rest
      else none

def writeText (text : String) : List UInt8 :=
  writeNat text.utf8ByteSize ++ Octets.ofText text

def readText? (octets : List UInt8) : Option (String × List UInt8) := do
  let (length, afterLength) ← readNat? 8 octets
  let (spelling, rest) ← take? length afterLength
  let text ← Octets.text? spelling.toArray
  return (text, rest)

def writeIndex {α : Type} [DecidableEq α] (all : List α) (value : α) : List UInt8 :=
  writeNat (all.idxOf value)

def readIndex? {α : Type} (all : List α) (octets : List UInt8) : Option (α × List UInt8) := do
  let (index, rest) ← readNat? 4 octets
  let value ← all[index]?
  return (value, rest)

def writeSerial : Option UInt32 → List UInt8
  | none => [0]
  | some serial => 1 :: writeNat serial.toNat

def readSerial? : List UInt8 → Option (Option UInt32 × List UInt8)
  | tag :: rest =>
      if tag = 0 then some (none, rest)
      else if tag = 1 then (readNat? 4 rest).map fun read => (some read.1.toUInt32, read.2)
      else none
  | [] => none

def writeUntimed (record : StatusRecord) : List UInt8 :=
  writeText record.zoneId ++ writeIndex ZoneAction.all record.action ++
    writeText record.nameserver.host ++ writeNat record.nameserver.port.toNat ++
    writeIndex Status.all record.status ++ writeSerial record.serial

def write (record : StatusRecord) : List UInt8 :=
  writeUntimed record ++ writeText record.updatedAt.text

def read? (octets : List UInt8) : Option (StatusRecord × List UInt8) := do
  let (zoneId, octets) ← readText? octets
  let (action, octets) ← readIndex? ZoneAction.all octets
  let (host, octets) ← readText? octets
  let (port, octets) ← readNat? 2 octets
  let (status, octets) ← readIndex? Status.all octets
  let (serial, octets) ← readSerial? octets
  let (time, rest) ← readText? octets
  let updatedAt ← Timestamp.ofText? time
  return ({ zoneId, action, nameserver := ⟨host, port.toUInt16⟩, status, serial, updatedAt }, rest)

end ZonePropagation.Status.Encoding
