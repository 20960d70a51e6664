import ZonePropagation.Propagation.Program
import ZonePropagation.Provisioner.Registry
import ZonePropagation.Registry.Store
import ZonePropagation.Status.Store
/-!
What surrounds a manager, and how it answers effects.

The stores, the drivers of targets, the locks and the counts are a value.  Nameservers and time lie
outside of it.
-/

namespace ZonePropagation.Propagation

structure Surroundings where
  status : Status.Store
  registry : Registry.Store
  backends : Backends := {}
  locks : LockTable := {}
  metrics : Metrics := {}
deriving Repr

namespace Surroundings

def withStatus {ε α : Type} {m : Type → Type} [Monad m]
    (change : Status.Store → Except ε α × Status.Store) : StateT Surroundings m (Except ε α) :=
  modifyGet fun surroundings =>
    let (result, status) := change surroundings.status
    (result, { surroundings with status })

def withLocks {m : Type → Type} [Monad m] (change : LockTable → LockTable) :
    StateT Surroundings m Unit :=
  modify fun surroundings => { surroundings with locks := change surroundings.locks }

def callBackend {m : Type → Type} [Monad m] (channel : Provisioner.Channel m) (target : String)
    (change : ZoneChange) (zone : Zone) : StateT Surroundings m (Option (String × Bool)) := do
  let surroundings ← get
  match surroundings.backends.get? target with
  | none => return none
  | some backend =>
      let (result, after) ←
        (backend.carryOut channel change zone : m (Except Fault Unit × Backend))
      set { surroundings with backends := surroundings.backends.insert target after }
      return some (backend.type, result.isOk)

def askSerial {m : Type → Type} [Monad m] (channel : Provisioner.Channel m)
    (target zone : String) :
    StateT Surroundings m (Option (Except Fault (Option UInt32))) := do
  match (← get).backends.get? target with
  | none => return none
  | some backend =>
      let serial ← (backend.serial? channel zone : m (Except Fault (Option UInt32)))
      return some serial

/-- Answers an effect at once.  Time, probes and work that is handed out are not the business of
the surroundings: no time passes, no server answers and no work is done. -/
def answer {m : Type → Type} [Monad m] (channel : Provisioner.Channel m) (clock : Status.Clock) :
    (effect : Effect) → StateT Surroundings m (Reply effect)
  | .clearRows key => withStatus fun rows => rows.clear key
  | .storeRow key server status serial =>
      withStatus fun rows => rows.store clock key server status serial
  | .readRows key => withStatus fun rows => (rows.retrieve clock key, rows)
  | .reapRows ageSeconds => withStatus fun rows => rows.reapStale clock ageSeconds
  | .findZones criterion => do return (← get).registry.findZones criterion
  | .deliver report => modifyGet fun surroundings =>
      let (result, registry) := surroundings.registry.deliver report clock.now
      (result, { surroundings with registry })
  | .callBackend target change zone => callBackend channel target change zone
  | .askSerial target zone => askSerial channel target zone
  | .measure thing => modify fun surroundings =>
      { surroundings with metrics := surroundings.metrics.add thing }
  | .now => return clock.now
  | .elapsed => return clock.elapsed
  | .enter key => modifyGet fun surroundings =>
      let (lock, locks) := surroundings.locks.enter key
      (lock, { surroundings with locks })
  | .acquire lock => withLocks fun locks => locks.hold lock
  | .release lock => withLocks fun locks => locks.release lock
  | .retire key lock => withLocks fun locks => locks.retire key lock
  | .leave lock => withLocks fun locks => locks.leave lock
  | .probe _ _ _ _ => return { outcome := .timeout, serial := none, attempts := 0 }
  | .fork _ _ => return []
  | .awaitTick _ => return false
  | .pause _ | .pauseUpTo _ | .detach _ | .stopTimers => return

end Surroundings

structure Site (m : Type → Type) where
  channel : Provisioner.Channel m
  probe : ProbeKind → String → Nameserver → ProbeOptions → m Probe
  pause : Nat → m Unit
  clock : m Status.Clock

/-- Answers the effects of a manager that runs by itself: work that is handed out is done item by
item, down to `depth` levels of work within work, and detached work is left undone. -/
def alone {m : Type → Type} [Monad m] (manager : Manager) (site : Site m) :
    (depth : Nat) → (effect : Effect) → StateT Surroundings m (Reply effect)
  | _, .probe kind zone server options => site.probe kind zone server options
  | _, .pause millis => site.pause millis
  | _, .pauseUpTo millis => site.pause millis
  | depth + 1, .fork _ work => work.mapM fun operation =>
      (manager.program operation).run (alone manager site depth)
  | _, effect => do Surroundings.answer site.channel (← site.clock) effect

def depth : Nat := 2

end ZonePropagation.Propagation
