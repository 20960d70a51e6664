import ZonePropagation.Status.Record
/-!
Status records kept in the process.  A row expires a fixed time after it was last written.

Row expiry follows a clock of its own, in milliseconds; the age of rows follows the calendar.
-/

namespace ZonePropagation.Status

structure Clock where
  elapsed : Nat
  now : Timestamp
deriving Repr, Inhabited

structure Entry where
  record : StatusRecord
  expiresAt : Nat
deriving DecidableEq, Repr, Inhabited

def Entry.isExpired (entry : Entry) (elapsed : Nat) : Bool :=
  entry.expiresAt ≤ elapsed

/-- The rows of a process; each lives for `ttl` milliseconds. -/
structure Memory where
  ttl : Nat
  entries : List Entry := []
deriving Repr, Inhabited

namespace Memory

def store (memory : Memory) (clock : Clock) (zoneId : String) (action : ZoneAction)
    (nameserver : Nameserver) (status : Status) (serial : Option UInt32) : Memory :=
  let record : StatusRecord :=
    { zoneId, action, nameserver, status, serial, updatedAt := clock.now }
  let others := memory.entries.filter fun entry => !entry.record.sameKey record
  { memory with entries := others ++ [⟨record, clock.elapsed + memory.ttl⟩] }

def retrieve (memory : Memory) (elapsed : Nat) (zoneId : String) (action : ZoneAction) :
    List StatusRecord :=
  (memory.entries.filter fun entry =>
    entry.record.isFor zoneId action && !entry.isExpired elapsed).map Entry.record

def live (memory : Memory) (elapsed : Nat) : List StatusRecord :=
  (memory.entries.filter fun entry => !entry.isExpired elapsed).map Entry.record

def clear (memory : Memory) (zoneId : String) (action : ZoneAction) : Memory :=
  { memory with entries := memory.entries.filter fun entry => !entry.record.isFor zoneId action }

def remove (memory : Memory) (selects : Entry → Bool) : Memory × Nat :=
  let kept := memory.entries.filter fun entry => !selects entry
  ({ memory with entries := kept }, memory.entries.length - kept.length)

def evictExpired (memory : Memory) (elapsed : Nat) : Memory × Nat :=
  memory.remove fun entry => entry.isExpired elapsed

def maxAgeSeconds : Nat := (Nat.pow 2 63 - 1) / 1000

/-- The time that many seconds before `now`, when there is such a time. -/
def cutoff? (now : Timestamp) (ageSeconds : Nat) : Option Timestamp :=
  let cutoff := now.earlier ageSeconds
  if ageSeconds ≤ maxAgeSeconds && Timestamp.inRange cutoff.second then some cutoff else none

/-- Removes expired rows and rows not written for `ageSeconds`, and gives their number. -/
def reapStale (memory : Memory) (clock : Clock) (ageSeconds : Nat) : Memory × Nat :=
  let (live, evicted) := memory.evictExpired clock.elapsed
  match cutoff? clock.now ageSeconds with
  | none => (live, evicted)
  | some cutoff =>
      let (kept, stale) := live.remove fun entry => entry.record.updatedAt.isBefore cutoff
      (kept, evicted + stale)

end Memory

end ZonePropagation.Status
