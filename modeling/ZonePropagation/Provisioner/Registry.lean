import ZonePropagation.Provisioner.PowerDns
import ZonePropagation.Provisioner.Rehearsal
import ZonePropagation.Provisioner.Sidecar
import ZonePropagation.Settings
/-!
The drivers by backend type, and those of a topology by target.
-/

namespace ZonePropagation

inductive Backend where
  | sidecar (driver : Provisioner.Sidecar)
  | powerDns (driver : Provisioner.PowerDns)
  | rehearsal (driver : Provisioner.Rehearsal)
deriving Repr

namespace Backend

open Provisioner

def type : Backend → String
  | .sidecar _ => Sidecar.type
  | .powerDns _ => PowerDns.type
  | .rehearsal _ => Rehearsal.type

def ofTarget? (target : Target) : Option (Except Fault Backend) :=
  if target.backendType = Sidecar.type then some ((Sidecar.ofTarget target).map sidecar)
  else if target.backendType = PowerDns.type then some ((PowerDns.ofTarget target).map powerDns)
  else if target.backendType = Rehearsal.type then
    some (.ok (rehearsal (Rehearsal.ofTarget target)))
  else none

def ofTarget (target : Target) : Except Fault Backend :=
  (ofTarget? target).getD (.error (.backend target.backendType "unknown backend type"))

variable {m : Type → Type} [Monad m]

/-- Carries out a change, after which the driver may remember more. -/
def carryOut (backend : Backend) (channel : Channel m) (change : ZoneChange) (zone : Zone) :
    m (Except Fault Unit × Backend) := do
  match backend with
  | .sidecar driver => return (← driver.carryOut channel change zone, backend)
  | .powerDns driver => return (← driver.carryOut channel change zone, backend)
  | .rehearsal driver =>
      let (result, after) := driver.carryOut change zone
      return (result, .rehearsal after)

def serial? (backend : Backend) (channel : Channel m) (zone : String) :
    m (Except Fault (Option UInt32)) :=
  match backend with
  | .sidecar driver => driver.serial? channel zone
  | .powerDns driver => driver.serial? channel zone
  | .rehearsal driver => return .ok (driver.serial? zone)

end Backend

structure Backends where
  byTarget : List (String × Backend) := []
deriving Repr

namespace Backends

def insert (backends : Backends) (id : String) (backend : Backend) : Backends :=
  ⟨(backends.byTarget.filter fun entry => entry.1 != id) ++ [(id, backend)]⟩

def get? (backends : Backends) (id : String) : Option Backend :=
  (backends.byTarget.find? fun entry => entry.1 == id).map Prod.snd

/-- The drivers of all targets of a topology, or the failure of the first that has none. -/
def ofTopology (topology : Topology) : Except Fault Backends :=
  (topology.pools.flatMap Pool.targets).foldlM
    (fun backends target => (Backend.ofTarget target).map (backends.insert target.id)) {}

end Backends

end ZonePropagation
