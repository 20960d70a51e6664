import ZonePropagation.Fault
import ZonePropagation.Zone.Criterion
/-!
The registry of zones kept in the process.  It remembers every report it accepted, in the order of
arrival, and may be told to refuse the next ones.
-/

namespace ZonePropagation.Registry

structure Report where
  zoneId : String
  status : Status
  serial : UInt32
deriving DecidableEq, Repr, Inhabited

/-- The only zone among those found, or the failure to find just one. -/
def theOnly (key : String) : List Zone → Except Fault Zone
  | [zone] => .ok zone
  | [] => .error (.zoneNotFound key)
  | zones => .error (.registry s!"expected one zone, found {zones.length}")

def sought (criterion : ZoneCriterion) : String :=
  (criterion.name.or criterion.id).getD ""

/-- The zones and records of a process; no two zones have the same id. -/
structure Memory where
  zones : List Zone := []
  records : List StoredRecord := []
  reports : List Report := []
  refusals : Nat := 0
deriving Repr, Inhabited

namespace Memory

def zone? (memory : Memory) (id : String) : Option Zone :=
  memory.zones.find? fun zone => zone.id == id

def insertZone (memory : Memory) (zone : Zone) : Memory :=
  if (memory.zone? zone.id).isSome then
    { memory with zones := memory.zones.map fun other => if other.id == zone.id then zone else other }
  else { memory with zones := memory.zones ++ [zone] }

def insertRecord (memory : Memory) (record : StoredRecord) : Memory :=
  { memory with records := memory.records ++ [record] }

def purge (memory : Memory) (zoneId : String) : Memory :=
  { memory with
    zones := memory.zones.filter fun zone => zone.id != zoneId
    records := memory.records.filter fun record => record.zoneId != zoneId }

def apply (memory : Memory) (report : Report) (now : Timestamp) : Memory :=
  match memory.zone? report.zoneId with
  | none => memory
  | some zone =>
      match zone.judged report.status report.serial now with
      | (_, true) => memory.purge report.zoneId
      | (judged, false) => memory.insertZone judged

/-- Delivers a report; a refused one changes nothing but the number of refusals to come. -/
def deliver (memory : Memory) (report : Report) (now : Timestamp) : Except Fault Unit × Memory :=
  match memory.refusals with
  | left + 1 => (.error (.registry "injected report failure"), { memory with refusals := left })
  | 0 => (.ok (), ({ memory with reports := memory.reports ++ [report] }).apply report now)

def findZones (memory : Memory) (criterion : ZoneCriterion) : List Zone :=
  criterion.limited ((memory.zones.filter criterion.selects).mergeSort fun left right =>
    left.updatedAt ≤ right.updatedAt)

def findZone (memory : Memory) (criterion : ZoneCriterion) : Except Fault Zone :=
  theOnly (sought criterion) (memory.findZones criterion)

def findRecords (memory : Memory) (zoneId : String) : List StoredRecord :=
  memory.records.filter fun record => record.zoneId == zoneId

end Memory

end ZonePropagation.Registry
