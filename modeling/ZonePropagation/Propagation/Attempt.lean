import ZonePropagation.Propagation.Delivery
import ZonePropagation.Propagation.Polling
/-!
Attempts to propagate a change of a zone.

An attempt writes the change to the targets of the zone's pool, verifies every nameserver of the
pool, and delivers the verdict of the pool.  Rows tell which nameservers have been verified; they
are kept under the zone and its action, and cleared once a verdict was accepted.
-/

namespace ZonePropagation

structure Manager where
  topology : Topology
  policy : VerificationPolicy
deriving Repr

namespace Pool

def verdict (pool : Pool) (expected : UInt32) (rows : List StatusRecord) : Verdict :=
  Quorum.evaluate (rows.filter fun row => pool.hasNameserver row.nameserver)
    pool.nameservers.length pool.threshold expected

end Pool

namespace Propagation

def dispatch (pool : Pool) (zone : Zone) : Program Nat := do
  let results ← sideBySide (pool.targets.map fun target => .change target.id zone)
  return results.countP Result.isSuccess

def change (target : String) (zone : Zone) : Program Bool := do
  match ← perform (.callBackend target zone.action.change zone) with
  | none => return false
  | some (type, accepted) =>
      measure (.backendCall type zone.action accepted)
      return accepted

def announceToOthers (pool : Pool) (zone : Zone) : Program Unit :=
  unless zone.action = .delete do
    discard (sideBySide (pool.alsoNotifies.map (.announce zone)))

/-- Delivers a verdict on a zone, and clears the zone's rows once it was accepted. -/
def conclude (policy : VerificationPolicy) (zone : Zone) (status : Status) (serial : UInt32) :
    Fallible Unit := do
  measure (.verdict zone.action status)
  if ← deliver policy zone status serial then clearRows zone.key

/-- Evaluates the rows of a zone and concludes a final verdict.  The caller holds the lock. -/
def decide (policy : VerificationPolicy) (pool : Pool) (zone : Zone) : Fallible Verdict := do
  let verdict := pool.verdict zone.serial (← readRows zone.key)
  match verdict.report? with
  | none => return verdict
  | some (status, serial) =>
      conclude policy zone status serial
      return verdict

def verify (policy : VerificationPolicy) (pool : Pool) (zone : Zone) : Fallible Progress := do
  pool.nameservers.forM fun server => storeRow zone.key server .pending none
  if policy.detached && !pool.nameservers.isEmpty then
    perform (.detach (pool.nameservers.map (.verifyDetached zone)))
    return .verifying
  let results ← sideBySide (pool.nameservers.map (.verify zone))
  for result in results do
    if let .stored (.error fault) := result then throw fault
  match ← ExceptT.mk (locked zone.key (decide policy pool zone).run) with
  | .pending _ _ _ => return .verifying
  | final => return .decided final.status

def giveUp (policy : VerificationPolicy) (pool : Pool) (zone : Zone) : Fallible Progress := do
  pool.nameservers.forM fun server => storeRow zone.key server .error none
  conclude policy zone .error zone.serial
  return .backendsFailed

end Propagation

namespace Manager

open Propagation

def pool (manager : Manager) (zone : Zone) : Fallible Pool :=
  ExceptT.mk (pure (manager.topology.get zone.poolId))

def propagate (manager : Manager) (zone : Zone) (action : ZoneAction) : Fallible Progress := do
  let pool ← manager.pool zone
  let zone := { zone with action }
  clearRows zone.key
  let accepted ← dispatch pool zone
  if accepted = 0 && !pool.targets.isEmpty then giveUp manager.policy pool zone
  else
    announceToOthers pool zone
    Propagation.verify manager.policy pool zone

def propagatePending (manager : Manager) (zone : Zone) : Fallible Progress :=
  manager.propagate zone zone.action.effective

def recover (manager : Manager) (zone : Zone) : Fallible Progress := do
  let pool ← manager.pool zone
  let zone := { zone with action := zone.action.effective }
  clearRows zone.key
  Propagation.verify manager.policy pool zone

/-- Records the result of a nameserver for the pending action of a zone, and concludes the verdict
if that makes it final.  A result that no attempt waits for is ignored, and so is one from a server
outside the pool. -/
def record (manager : Manager) (zone : Zone) (server : Nameserver) (status : Status)
    (serial : Option UInt32) : Fallible (Option Verdict) := do
  let pool ← manager.pool zone
  let zone := { zone with action := zone.action.effective }
  if !pool.hasNameserver server then return none
  ExceptT.mk <| locked zone.key <| ExceptT.run do
    if (← readRows zone.key).isEmpty then return none
    storeRow zone.key server status serial
    return some (← decide manager.policy pool zone)

end Manager

end ZonePropagation
