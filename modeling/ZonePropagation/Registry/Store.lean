import ZonePropagation.Registry.Table
/-!
A registry of zones of either kind.
-/

namespace ZonePropagation.Registry

inductive Store where
  | memory (zones : Memory)
  | table (zones : Table)
deriving Repr, Inhabited

namespace Store

def deliver (store : Store) (report : Report) (now : Timestamp) : Except Fault Unit × Store :=
  match store with
  | .memory zones =>
      let (result, zones) := zones.deliver report now
      (result, .memory zones)
  | .table zones =>
      match zones.deliver report now with
      | .ok zones => (.ok (), .table zones)
      | .error fault => (.error fault, .table zones)

/-- The zones a criterion selects, the least recently updated first. -/
def findZones (store : Store) (criterion : ZoneCriterion) : Except Fault (List Zone) :=
  match store with
  | .memory zones => .ok (zones.findZones criterion)
  | .table zones => zones.findZones .admin criterion

def findZone (store : Store) (criterion : ZoneCriterion) : Except Fault Zone :=
  match store with
  | .memory zones => zones.findZone criterion
  | .table zones => zones.findZone .admin criterion

def findRecords (store : Store) (zoneId : String) : Except Fault (List StoredRecord) :=
  match store with
  | .memory zones => .ok (zones.findRecords zoneId)
  | .table zones => zones.findRecords zoneId

end Store

end ZonePropagation.Registry
