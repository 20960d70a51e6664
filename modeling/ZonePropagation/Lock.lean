import ZonePropagation.Zone
/-!
Locks by zone and action, made when they are first asked for and dropped when nobody needs them.

A caller takes a handle on the lock of its key, waits until the lock is free, works, releases the
lock, drops the lock's entry if no other caller has a handle on the lock, and gives back its own
handle.  Each of these is one step, so that the steps of many callers may come in any order.
-/

namespace ZonePropagation

structure ActionKey where
  zoneId : String
  action : ZoneAction
deriving DecidableEq, Repr, Inhabited

def Zone.key (zone : Zone) : ActionKey :=
  ⟨zone.id, zone.action⟩

/-- Locks, each known by a number of its own.  A lock stays in `handles` once for every handle on
it, whether it has an entry or not. -/
structure LockTable where
  next : Nat := 0
  entries : List (ActionKey × Nat) := []
  handles : List Nat := []
  held : List Nat := []
deriving Repr, Inhabited

namespace LockTable

def lock? (table : LockTable) (key : ActionKey) : Option Nat :=
  (table.entries.find? fun entry => entry.1 == key).map Prod.snd

def enter (table : LockTable) (key : ActionKey) : Nat × LockTable :=
  match table.lock? key with
  | some lock => (lock, { table with handles := lock :: table.handles })
  | none =>
      (table.next,
        { table with
          next := table.next + 1
          entries := (key, table.next) :: table.entries
          handles := table.next :: table.handles })

def isFree (table : LockTable) (lock : Nat) : Bool :=
  !table.held.contains lock

def hold (table : LockTable) (lock : Nat) : LockTable :=
  { table with held := lock :: table.held }

def release (table : LockTable) (lock : Nat) : LockTable :=
  { table with held := table.held.erase lock }

def references (table : LockTable) (lock : Nat) : Nat :=
  table.handles.count lock + table.entries.countP fun entry => entry.2 == lock

/-- Drops the entry of a key if it is for this lock and only one handle is left. -/
def retire (table : LockTable) (key : ActionKey) (lock : Nat) : LockTable :=
  if table.lock? key = some lock ∧ table.references lock ≤ 2 then
    { table with entries := table.entries.filter fun entry => entry.1 != key }
  else table

def leave (table : LockTable) (lock : Nat) : LockTable :=
  { table with handles := table.handles.erase lock }

end LockTable

end ZonePropagation
