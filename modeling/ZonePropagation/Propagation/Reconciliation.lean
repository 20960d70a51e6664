import ZonePropagation.Propagation.Attempt
/-!
What the timers do at a tick.

Recovery verifies again the zones in error and the zones that have been pending for too long.  Sync
carries out a full update of the least recently updated zones, and removes stale rows.
-/

namespace ZonePropagation

namespace Propagation

def batchWidth : Nat := 8

def batch (timer : Timer) (work : List Operation) : Program TickSummary := do
  let results ← perform (.fork batchWidth work)
  results.forM fun result => measure (.reconciled timer result.isSuccess)
  return {
    processed := results.length
    failed := results.countP fun result => !result.isSuccess }

end Propagation

namespace ReconciliationPolicy

open Propagation

/-- The zones to recover: those in error, and where there are fewer than allowed, those that have
been pending since before the grace period. -/
def candidates (policy : ReconciliationPolicy) : Fallible (List Zone) := do
  let failed ← findZones { statuses := [.error], limit := some policy.maxZones }
  let remaining := policy.maxZones - failed.length
  if remaining = 0 then return failed
  let now ← perform .now
  let stuck ← findZones {
    statuses := [.pending]
    updatedBefore := some (now.ago policy.pendingGrace)
    limit := some remaining }
  return failed ++ stuck

def syncZones (policy : ReconciliationPolicy) : Fallible (List Zone) := do
  let now ← perform .now
  let zones ← findZones {
    updatedAfter := policy.syncWindow.map now.ago
    limit := some policy.maxZones }
  return zones.filter fun zone => zone.action != .delete

def recoverOnce (policy : ReconciliationPolicy) : Fallible TickSummary := do
  let zones ← policy.candidates
  batch .recovery (zones.map .recover)

/-- Removes the rows not written for a while, and gives their number.  Rows that cannot be removed
are left. -/
def reapRows (ageSeconds : Nat) : Program Nat := do
  return (← perform (.reapRows ageSeconds)).toOption.getD 0

def syncOnce (policy : ReconciliationPolicy) : Fallible TickSummary := do
  let zones ← policy.syncZones
  let summary ← batch .sync (zones.map fun zone => .propagate zone .update)
  return { summary with reaped := ← reapRows policy.statusTtl }

def tick (policy : ReconciliationPolicy) : Timer → Fallible TickSummary
  | .recovery => policy.recoverOnce
  | .sync => policy.syncOnce

def period (policy : ReconciliationPolicy) : Timer → Nat
  | .recovery => policy.recoveryInterval * 1000
  | .sync => policy.syncInterval * 1000

def timers (policy : ReconciliationPolicy) : List Timer :=
  (if policy.recovery then [.recovery] else []) ++ if policy.sync then [.sync] else []

end ReconciliationPolicy

namespace Propagation

def tolerance : Nat := 5

def nextTick (due came period : Nat) : Nat :=
  if came > due + tolerance then came + period - (came - due) % period else due + period

/-- Ticks at most `rounds` times, from a moment on, until the timers are stopped.  A failed tick is
forgotten. -/
def ticks (policy : ReconciliationPolicy) (timer : Timer) : (rounds due : Nat) → Program Unit
  | 0, _ => return
  | rounds + 1, due => do
      if ← perform (.awaitTick due) then
        let came ← perform .elapsed
        discard (policy.tick timer).run
        ticks policy timer rounds (nextTick due came (policy.period timer))

def mostTicks : Nat := Nat.pow 2 62

def runTimer (policy : ReconciliationPolicy) (timer : Timer) : Program Unit := do
  let start ← perform .elapsed
  ticks policy timer mostTicks (start + policy.period timer)

def runTimers (policy : ReconciliationPolicy) (millis : Nat) : Program Unit :=
  discard (sideBySide (policy.timers.map (.timer · policy) ++ [.stopAfter millis]))

end Propagation

end ZonePropagation
