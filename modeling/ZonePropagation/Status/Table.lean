import ZonePropagation.Fault
import ZonePropagation.Status.Record
/-!
Status records in a database table.

A row holds texts and 64-bit numbers; its key is the zone, the action and the nameserver's text.
Rows of one zone action are read in the order of the nameservers' texts.
-/

namespace ZonePropagation.Status

structure TableRow where
  zoneId : String
  action : String
  nameserver : String
  status : String
  serial : Option Int
  updatedAt : Int
deriving DecidableEq, Repr, Inhabited

namespace TableRow

def sameKey (left right : TableRow) : Bool :=
  left.zoneId == right.zoneId && left.action == right.action &&
    left.nameserver == right.nameserver

def isFor (row : TableRow) (zoneId : String) (action : ZoneAction) : Bool :=
  row.zoneId == zoneId && row.action == action.text

def ofRecord (record : StatusRecord) : TableRow where
  zoneId := record.zoneId
  action := record.action.text
  nameserver := record.nameserver.key
  status := record.status.text
  serial := record.serial.map fun serial => (serial.toNat : Int)
  updatedAt := record.updatedAt.toMillis

def wordOf {α : Type} (read : Except UnknownWord α) : Except Fault α :=
  read.mapError fun unknown => .statusStore unknown.message

/-- The time of a number of milliseconds, or the epoch when there is no such time. -/
def timeOf (millis : Int) : Timestamp :=
  let time := Timestamp.ofMillis millis
  if Timestamp.inRange time.second then time else ⟨0, 0⟩

def toRecord (row : TableRow) : Except Fault StatusRecord := do
  let action ← wordOf (ZoneAction.ofText row.action)
  let nameserver ← match Nameserver.ofText? row.nameserver with
    | some nameserver => .ok nameserver
    | none => .error (.statusStore ("invalid nameserver in status row: " ++ row.nameserver))
  let status ← wordOf (Status.ofText row.status)
  return {
    zoneId := row.zoneId
    action
    nameserver
    status
    serial := row.serial.map fun serial => (serial % 4294967296).toNat.toUInt32
    updatedAt := timeOf row.updatedAt }

end TableRow

/-- The table of status records; a closed one refuses every operation. -/
structure Table where
  rows : List TableRow := []
  closed : Bool := false
deriving Repr, Inhabited

namespace Table

def guard (table : Table) : Except Fault Unit :=
  if table.closed then .error (.database "attempted to acquire a connection on a closed pool")
  else .ok ()

def upsert (rows : List TableRow) (row : TableRow) : List TableRow :=
  (rows.filter fun other => !other.sameKey row) ++ [row]

def storeRow (table : Table) (row : TableRow) : Except Fault Table := do
  table.guard
  return { table with rows := upsert table.rows row }

def store (table : Table) (record : StatusRecord) : Except Fault Table :=
  table.storeRow (TableRow.ofRecord record)

def rowsFor (table : Table) (zoneId : String) (action : ZoneAction) : List TableRow :=
  (table.rows.filter fun row => row.isFor zoneId action).mergeSort fun left right =>
    left.nameserver ≤ right.nameserver

/-- The records of a zone's action; the first row that cannot be read fails all of them. -/
def retrieve (table : Table) (zoneId : String) (action : ZoneAction) :
    Except Fault (List StatusRecord) := do
  table.guard
  (table.rowsFor zoneId action).mapM TableRow.toRecord

def clear (table : Table) (zoneId : String) (action : ZoneAction) : Except Fault Table := do
  table.guard
  return { table with rows := table.rows.filter fun row => !row.isFor zoneId action }

/-- The time before which rows are stale.  The age in milliseconds and the difference are
signed 64-bit numbers. -/
def cutoff (now : Int) (ageSeconds : Nat) : Int :=
  Int.bmod (now - Int.bmod (ageSeconds * 1000) (Nat.pow 2 64)) (Nat.pow 2 64)

def reapStale (table : Table) (now : Int) (ageSeconds : Nat) : Except Fault (Table × Nat) := do
  table.guard
  let kept := table.rows.filter fun row => !(row.updatedAt < cutoff now ageSeconds)
  return ({ table with rows := kept }, table.rows.length - kept.length)

end Table

end ZonePropagation.Status
