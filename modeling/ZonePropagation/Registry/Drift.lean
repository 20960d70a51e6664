import ZonePropagation.Message
import ZonePropagation.Name
import ZonePropagation.Zone
/-!
The difference between the records of the registry and those that a nameserver serves.

Only owners and types are compared, and neither the case of a letter nor the start of authority
makes a difference.
-/

namespace ZonePropagation

structure RecordSet where
  owner : String
  type : String
deriving DecidableEq, Repr

namespace RecordSet

def precedes (left right : RecordSet) : Bool :=
  left.owner < right.owner || (left.owner == right.owner && left.type ≤ right.type)

/-- An owner's name in small letters and with a dot at its end. -/
def ownerOf (name : String) : String :=
  let small := name.toLower
  if small.endsWith "." then small else small ++ "."

def ofStored (record : StoredRecord) : RecordSet :=
  ⟨ownerOf record.name, record.type.toUpper⟩

def ofReceived (record : ResourceRecord) : RecordSet :=
  ⟨(Name.text record.labels).toLower, record.type.text⟩

def sorted (sets : List RecordSet) : List RecordSet :=
  (sets.mergeSort precedes).eraseDups

end RecordSet

/-- What differs: record sets that only the registry has, and record sets that only the nameserver
has, both in order.  The nameserver serves `served` record sets. -/
structure Drift where
  missing : List RecordSet
  unexpected : List RecordSet
  served : Nat
deriving DecidableEq, Repr

namespace Drift

def between (stored : List StoredRecord) (received : List ResourceRecord) : Drift :=
  let expected := RecordSet.sorted ((stored.map RecordSet.ofStored).filter fun set =>
    set.type != "SOA")
  let served := RecordSet.sorted ((received.filter fun record =>
    record.type != .soa).map RecordSet.ofReceived)
  { missing := expected.filter fun set => !served.contains set
    unexpected := served.filter fun set => !expected.contains set
    served := served.length }

def isNone (drift : Drift) : Bool :=
  drift.missing.isEmpty && drift.unexpected.isEmpty

end Drift

end ZonePropagation
