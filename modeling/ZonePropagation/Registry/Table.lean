import ZonePropagation.Registry.Memory
import ZonePropagation.Status.Table
/-!
The registry of zones in database tables.

Rows hold texts and 64-bit numbers and stand in the order of their first insertion.  Ids and names
are unique, and a record needs its zone.  A tenant sees only the zones created in its name.
Applying a report takes two steps: reading the zone, then writing or removing it.
-/

namespace ZonePropagation.Registry

inductive Caller where
  | admin
  | tenant (id : String)
deriving DecidableEq, Repr

def Caller.tenant? : Caller → Option String
  | .admin => none
  | .tenant id => some id

structure ZoneRow where
  id : String
  name : String
  serial : Int
  action : String
  status : String
  poolId : String
  tenant : Option String
  updatedAt : Int
deriving DecidableEq, Repr, Inhabited

structure RecordRow where
  zoneId : String
  name : String
  type : String
  data : String
  ttl : Option Int
deriving DecidableEq, Repr, Inhabited

def low32 (value : Int) : UInt32 :=
  (value % 4294967296).toNat.toUInt32

namespace ZoneRow

def ofZone (tenant : Option String) (zone : Zone) : ZoneRow where
  id := zone.id
  name := zone.name
  serial := zone.serial.toNat
  action := zone.action.text
  status := zone.status.text
  poolId := zone.poolId
  tenant
  updatedAt := zone.updatedAt.toMillis

def wordOf {α : Type} (read : Except UnknownWord α) : Except Fault α :=
  read.mapError fun unknown => .registry unknown.message

def toZone (row : ZoneRow) : Except Fault Zone := do
  let action ← wordOf (ZoneAction.ofText row.action)
  let status ← wordOf (ZoneStatus.ofText row.status)
  return {
    id := row.id
    name := row.name
    serial := low32 row.serial
    action
    status
    poolId := row.poolId
    updatedAt := Status.TableRow.timeOf row.updatedAt }

def meets (criterion : ZoneCriterion) (row : ZoneRow) : Bool :=
  ZoneCriterion.holds criterion.id (fun id => row.id == id) &&
    ZoneCriterion.holds criterion.name (fun name => row.name == Zone.normalName name) &&
    ZoneCriterion.holds criterion.poolId (fun poolId => row.poolId == poolId) &&
    (criterion.statuses.isEmpty ||
      criterion.statuses.any fun status => row.status == status.text) &&
    ZoneCriterion.holds criterion.updatedBefore (fun bound => row.updatedAt < bound.toMillis) &&
    ZoneCriterion.holds criterion.updatedAfter (fun bound => bound.toMillis < row.updatedAt)

def visibleTo (caller : Caller) (row : ZoneRow) : Bool :=
  match caller with
  | .admin => true
  | .tenant id => row.tenant == some id

/-- The order of a result: by time, and among equals by state where states were asked for. -/
def precedes (criterion : ZoneCriterion) (left right : ZoneRow) : Bool :=
  left.updatedAt < right.updatedAt || (left.updatedAt == right.updatedAt &&
    (criterion.statuses.isEmpty || left.status ≤ right.status))

end ZoneRow

def RecordRow.toRecord (row : RecordRow) : StoredRecord where
  zoneId := row.zoneId
  name := row.name
  type := row.type
  data := row.data
  ttl := row.ttl.map low32

structure Table where
  zones : List ZoneRow := []
  records : List RecordRow := []
  closed : Bool := false
deriving Repr, Inhabited

namespace Table

def guard (table : Table) : Except Fault Unit :=
  if table.closed then .error (.database "attempted to acquire a connection on a closed pool")
  else .ok ()

def replacement (old new : ZoneRow) : ZoneRow :=
  { new with tenant := old.tenant }

def putRow (table : Table) (row : ZoneRow) : Except Fault Table := do
  table.guard
  if table.zones.any fun other => other.name == row.name && other.id != row.id then
    throw (.database "UNIQUE constraint failed: zones.name")
  if table.zones.any fun other => other.id == row.id then
    return { table with
      zones := table.zones.map fun other =>
        if other.id == row.id then replacement other row else other }
  else return { table with zones := table.zones ++ [row] }

/-- Creates a zone in the caller's name, or replaces the zone with its id. -/
def createZone (table : Table) (caller : Caller) (zone : Zone) : Except Fault Table :=
  table.putRow (ZoneRow.ofZone caller.tenant? zone)

def addRecord (table : Table) (record : StoredRecord) : Except Fault Table := do
  table.guard
  if table.zones.any fun row => row.id == record.zoneId then
    let ttl := record.ttl.map fun ttl => (ttl.toNat : Int)
    return { table with
      records := table.records ++ [⟨record.zoneId, record.name, record.type, record.data, ttl⟩] }
  else throw (.database "FOREIGN KEY constraint failed")

/-- The zone with that id: the first step of applying a report. -/
def fetchZone (table : Table) (id : String) : Except Fault (Option Zone) := do
  table.guard
  match table.zones.find? fun row => row.id == id with
  | none => return none
  | some row => return some (← row.toZone)

def purge (table : Table) (id : String) : Table :=
  { table with
    zones := table.zones.filter fun row => row.id != id
    records := table.records.filter fun row => row.zoneId != id }

/-- Writes the parts of a zone that a report can change, where the zone still exists. -/
def amend (table : Table) (zone : Zone) : Table :=
  { table with
    zones := table.zones.map fun row =>
      if row.id == zone.id then
        { row with
          serial := zone.serial.toNat
          action := zone.action.text
          status := zone.status.text
          updatedAt := zone.updatedAt.toMillis }
      else row }

/-- Writes what a report made of the zone read before: the second step. -/
def settle (table : Table) (judged : Zone × Bool) : Table :=
  if judged.2 then table.purge judged.1.id else table.amend judged.1

def deliver (table : Table) (report : Report) (now : Timestamp) : Except Fault Table := do
  match ← table.fetchZone report.zoneId with
  | none => throw (.zoneNotFound report.zoneId)
  | some zone => return table.settle (zone.judged report.status report.serial now)

def select (table : Table) (caller : Caller) (criterion : ZoneCriterion) : List ZoneRow :=
  criterion.limited ((table.zones.filter fun row =>
    row.meets criterion && row.visibleTo caller).mergeSort (ZoneRow.precedes criterion))

/-- The zones a criterion selects for a caller, the least recently updated first.  The first row
that cannot be read fails all of them. -/
def findZones (table : Table) (caller : Caller) (criterion : ZoneCriterion) :
    Except Fault (List Zone) := do
  table.guard
  (table.select caller criterion).mapM ZoneRow.toZone

def findZone (table : Table) (caller : Caller) (criterion : ZoneCriterion) :
    Except Fault Zone := do
  theOnly (sought criterion) (← table.findZones caller criterion)

def findRecords (table : Table) (zoneId : String) : Except Fault (List StoredRecord) := do
  table.guard
  return (table.records.filter fun row => row.zoneId == zoneId).map RecordRow.toRecord

end Table

end ZonePropagation.Registry
