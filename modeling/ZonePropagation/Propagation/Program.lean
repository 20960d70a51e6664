import ZonePropagation.Propagation.Reconciliation
/-!
The program of every operation of a manager.
-/

namespace ZonePropagation

/-- The serial that a target has for a zone, or the reason why it is not known. -/
structure TargetSerial where
  target : String
  backendType : String
  serial : Except String (Option UInt32)

namespace Manager

open Propagation

def program (manager : Manager) : Operation → Program Result
  | .change target zone => Result.finished <$> Propagation.change target zone
  | .announce zone server => do
      discard (probe .announcement zone server { manager.policy.probe with maxRetries := 1 })
      return .finished true
  | .verify zone server => do
      let (status, serial) ← verifyServer manager.policy zone server
      Result.stored <$> (storeRow zone.key server status serial).run
  | .verifyDetached zone server => do
      let (status, serial) ← verifyServer manager.policy zone server
      Result.recorded <$> (manager.record zone server status serial).run
  | .record zone server status serial =>
      Result.recorded <$> (manager.record zone server status serial).run
  | .propagate zone action => Result.attempted <$> (manager.propagate zone action).run
  | .recover zone => Result.attempted <$> (manager.recover zone).run
  | .timer timer policy => do
      runTimer policy timer
      return .finished true
  | .stopAfter millis => do
      perform (.pause millis)
      perform .stopTimers
      return .finished true

def targetSerial (target : Target) (zone : String) : Program TargetSerial := do
  let serial := match ← perform (.askSerial target.id zone) with
    | none => .error "no backend instance"
    | some (.error fault) => .error fault.message
    | some (.ok serial) => .ok serial
  return { target := target.id, backendType := target.backendType, serial }

def targetSerials (manager : Manager) (poolId zone : String) : Fallible (List TargetSerial) := do
  let pool ← ExceptT.mk (pure (manager.topology.get poolId))
  pool.targets.mapM fun target => targetSerial target zone

end Manager

end ZonePropagation
