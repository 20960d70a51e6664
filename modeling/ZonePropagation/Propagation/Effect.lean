import ZonePropagation.Lock
import ZonePropagation.Metrics
import ZonePropagation.Provisioner
import ZonePropagation.Quorum
import ZonePropagation.Registry.Memory
import ZonePropagation.Settings.Policy
import ZonePropagation.Task
/-!
The effects of a manager's programs.

A program reaches status rows, the registry of zones, the drivers of targets, the nameservers, the
clocks and the locks only by these effects, one at a time.  Work that may go on side by side is
handed out as operations.
-/

namespace ZonePropagation

inductive Progress where
  | verifying
  | decided (status : Status)
  | backendsFailed
deriving DecidableEq, Repr

structure TickSummary where
  processed : Nat := 0
  failed : Nat := 0
  reaped : Nat := 0
deriving DecidableEq, Repr, Inhabited

namespace Propagation

/-- Work that a manager is given or hands out itself.  The result of a detached verification is
recorded like one that came from outside. -/
inductive Operation where
  | change (target : String) (zone : Zone)
  | announce (zone : Zone) (server : Nameserver)
  | verify (zone : Zone) (server : Nameserver)
  | verifyDetached (zone : Zone) (server : Nameserver)
  | record (zone : Zone) (server : Nameserver) (status : Status) (serial : Option UInt32)
  | propagate (zone : Zone) (action : ZoneAction)
  | recover (zone : Zone)
  | timer (timer : Timer) (policy : ReconciliationPolicy)
  | stopAfter (millis : Nat)
deriving Repr

inductive Result where
  | finished (succeeded : Bool)
  | stored (outcome : Except Fault Unit)
  | recorded (outcome : Except Fault (Option Verdict))
  | attempted (outcome : Except Fault Progress)
  | ticked (outcome : Except Fault TickSummary)
  | together (results : List Result)

def Result.isSuccess : Result → Bool
  | .finished succeeded => succeeded
  | .stored outcome => outcome.isOk
  | .recorded outcome => outcome.isOk
  | .attempted (.ok .backendsFailed) => false
  | .attempted outcome => outcome.isOk
  | .ticked outcome => outcome.isOk
  | .together _ => true

/-- What a manager asks of its surroundings; lengths of time are in milliseconds.  Forked work is done
side by side, at most `width` items at a time, and waited for; detached work is not. -/
inductive Effect where
  | clearRows (key : ActionKey)
  | storeRow (key : ActionKey) (server : Nameserver) (status : Status) (serial : Option UInt32)
  | readRows (key : ActionKey)
  | reapRows (ageSeconds : Nat)
  | findZones (criterion : ZoneCriterion)
  | deliver (report : Registry.Report)
  | callBackend (target : String) (change : ZoneChange) (zone : Zone)
  | askSerial (target zone : String)
  | probe (kind : ProbeKind) (zone : String) (server : Nameserver) (options : ProbeOptions)
  | measure (measure : Measure)
  | now
  | elapsed
  | pause (millis : Nat)
  | pauseUpTo (millis : Nat)
  | enter (key : ActionKey)
  | acquire (lock : Nat)
  | release (lock : Nat)
  | retire (key : ActionKey) (lock : Nat)
  | leave (lock : Nat)
  | fork (width : Nat) (work : List Operation)
  | detach (work : List Operation)
  | awaitTick (moment : Nat)
  | stopTimers
deriving Repr

/-- What an effect is replied with.  A call to a target without a driver has no reply. -/
@[reducible]
def Reply : Effect → Type
  | .clearRows _ | .storeRow _ _ _ _ | .deliver _ => Except Fault Unit
  | .readRows _ => Except Fault (List StatusRecord)
  | .reapRows _ => Except Fault Nat
  | .findZones _ => Except Fault (List Zone)
  | .callBackend _ _ _ => Option (String × Bool)
  | .askSerial _ _ => Option (Except Fault (Option UInt32))
  | .probe _ _ _ _ => Probe
  | .now => Timestamp
  | .elapsed | .enter _ => Nat
  | .fork _ _ => List Result
  | .awaitTick _ => Bool
  | .measure _ | .pause _ | .pauseUpTo _ | .acquire _ | .release _ | .retire _ _ | .leave _ => Unit
  | .detach _ | .stopTimers => Unit

abbrev Program := Task Effect Reply

abbrev Fallible := ExceptT Fault Program

def perform (effect : Effect) : Program (Reply effect) :=
  Task.ask effect

def measure (thing : Measure) : Program Unit := perform (.measure thing)

def clearRows (key : ActionKey) : Fallible Unit := ExceptT.mk (perform (.clearRows key))

def storeRow (key : ActionKey) (server : Nameserver) (status : Status)
    (serial : Option UInt32) : Fallible Unit :=
  ExceptT.mk (perform (.storeRow key server status serial))

def readRows (key : ActionKey) : Fallible (List StatusRecord) :=
  ExceptT.mk (perform (.readRows key))

def findZones (criterion : ZoneCriterion) : Fallible (List Zone) :=
  ExceptT.mk (perform (.findZones criterion))

def sideBySide (work : List Operation) : Program (List Result) :=
  perform (.fork work.length work)

/-- Works while holding the lock of a key. -/
def locked {α : Type} (key : ActionKey) (work : Program α) : Program α := do
  let lock ← perform (.enter key)
  perform (.acquire lock)
  let result ← work
  perform (.release lock)
  perform (.retire key lock)
  perform (.leave lock)
  return result

end Propagation

end ZonePropagation
