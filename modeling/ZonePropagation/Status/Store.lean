import ZonePropagation.Lock
import ZonePropagation.Status.Memory
import ZonePropagation.Status.Table
/-!
A store of status rows of either kind.
-/

namespace ZonePropagation.Status

inductive Store where
  | memory (rows : Memory)
  | table (rows : Table)
deriving Repr, Inhabited

namespace Store

def name : Store → String
  | .memory _ => "memory"
  | .table _ => "sql"

/-- The table that an operation leaves; one that failed changes nothing. -/
def after (rows : Table) (result : Except Fault Table) : Except Fault Unit × Store :=
  match result with
  | .ok rows => (.ok (), .table rows)
  | .error fault => (.error fault, .table rows)

def store (store : Store) (clock : Clock) (key : ActionKey) (nameserver : Nameserver)
    (status : Status) (serial : Option UInt32) : Except Fault Unit × Store :=
  match store with
  | .memory rows =>
      (.ok (), .memory (rows.store clock key.zoneId key.action nameserver status serial))
  | .table rows => after rows (rows.store
      { zoneId := key.zoneId, action := key.action, nameserver, status, serial
        updatedAt := clock.now })

def retrieve (store : Store) (clock : Clock) (key : ActionKey) :
    Except Fault (List StatusRecord) :=
  match store with
  | .memory rows => .ok (rows.retrieve clock.elapsed key.zoneId key.action)
  | .table rows => rows.retrieve key.zoneId key.action

def clear (store : Store) (key : ActionKey) : Except Fault Unit × Store :=
  match store with
  | .memory rows => (.ok (), .memory (rows.clear key.zoneId key.action))
  | .table rows => after rows (rows.clear key.zoneId key.action)

/-- Removes rows not written for `ageSeconds`, and gives their number. -/
def reapStale (store : Store) (clock : Clock) (ageSeconds : Nat) : Except Fault Nat × Store :=
  match store with
  | .memory rows =>
      let (kept, count) := rows.reapStale clock ageSeconds
      (.ok count, .memory kept)
  | .table rows =>
      match rows.reapStale clock.now.toMillis ageSeconds with
      | .ok (kept, count) => (.ok count, .table kept)
      | .error fault => (.error fault, .table rows)

end Store

end ZonePropagation.Status
