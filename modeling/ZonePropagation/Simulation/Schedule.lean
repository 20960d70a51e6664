import ZonePropagation.Propagation.Surroundings
import ZonePropagation.Simulation.Network
/-!
A manager among scripted nameservers, under a clock that only moves while all work waits.

Work goes on in strands.  One strand runs at a time, effect by effect, until it waits: for time to
pass, for a lock, or for work that it handed out.  Then another strand runs that need not wait,
those of the call that was made before those of detached work.
-/

namespace ZonePropagation

open Propagation

/-- A line of work.  Its result goes to a place in a gathering, or is that of the call. -/
structure Simulation.Strand where
  ofCall : Bool
  place : Option (Nat × Nat) := none
  task : Program Result

/-- A strand that waits for a moment, and what it does instead if the timers are stopped. -/
structure Simulation.Sleeper where
  moment : Nat
  strand : Simulation.Strand
  ifStopped : Option (Program Result) := none

structure Simulation.Waiter where
  lock : Nat
  strand : Simulation.Strand

/-- Work that was handed out, by place: what has not begun, and the results of what is done. -/
structure Simulation.Gathering where
  id : Nat
  size : Nat
  waiting : List (Nat × Operation)
  results : List (Nat × Result) := []
  parent : Simulation.Strand
  next : List Result → Program Result

structure Simulation where
  manager : Manager
  surroundings : Surroundings
  network : Simulation.Network := {}
  elapsed : Nat := 0
  calendar : Int := 0
  stopped : Bool := false
  running : Option Simulation.Strand := none
  ready : List Simulation.Strand := []
  readyDetached : List Simulation.Strand := []
  sleepers : List Simulation.Sleeper := []
  waiters : List Simulation.Waiter := []
  gatherings : List Simulation.Gathering := []
  nextGathering : Nat := 0
  result : Option Result := none

namespace Simulation

def clock (simulation : Simulation) : Status.Clock :=
  ⟨simulation.elapsed, .ofMillis simulation.calendar⟩

def tick (simulation : Simulation) : Simulation :=
  { simulation with calendar := simulation.calendar + 1 }

def goOn (simulation : Simulation) (strand : Strand) (task : Program Result) : Simulation :=
  { simulation with running := some { strand with task } }

def enqueue (simulation : Simulation) (strand : Strand) : Simulation :=
  if strand.ofCall then { simulation with ready := simulation.ready ++ [strand] }
  else { simulation with readyDetached := simulation.readyDetached ++ [strand] }

def enqueueFirst (simulation : Simulation) (ofCall : Bool) (strands : List Strand) :
    Simulation :=
  if ofCall then { simulation with ready := strands ++ simulation.ready }
  else { simulation with readyDetached := strands ++ simulation.readyDetached }

def sleep (simulation : Simulation) (strand : Strand) (millis : Nat) (task : Program Result) :
    Simulation :=
  if millis = 0 then simulation.goOn strand task
  else
    let sleeper := { moment := simulation.elapsed + millis, strand := { strand with task } }
    { simulation with running := none, sleepers := simulation.sleepers ++ [sleeper] }

def awaitTick (simulation : Simulation) (strand : Strand) (moment : Nat)
    (next : Bool → Program Result) : Simulation :=
  if simulation.stopped then simulation.goOn strand (next false)
  else if moment ≤ simulation.elapsed then simulation.goOn strand (next true)
  else
    let sleeper : Sleeper :=
      { moment, strand := { strand with task := next true }, ifStopped := some (next false) }
    { simulation with running := none, sleepers := simulation.sleepers ++ [sleeper] }

def stopTimers (simulation : Simulation) : Simulation :=
  let left := { simulation with
    stopped := true
    sleepers := simulation.sleepers.filter fun sleeper => sleeper.ifStopped.isNone }
  let woken := simulation.sleepers.filterMap fun sleeper =>
    sleeper.ifStopped.map fun task => { sleeper.strand with task }
  woken.foldl enqueue left

def acquire (simulation : Simulation) (strand : Strand) (lock : Nat) (task : Program Result) :
    Simulation :=
  let locks := simulation.surroundings.locks
  if locks.isFree lock then
    { simulation.goOn strand task with
      surroundings := { simulation.surroundings with locks := locks.hold lock } }
  else
    let waiter := { lock, strand := { strand with task } }
    { simulation with running := none, waiters := simulation.waiters ++ [waiter] }

def release (simulation : Simulation) (lock : Nat) : Simulation :=
  let locks := simulation.surroundings.locks.release lock
  match simulation.waiters.find? fun waiter => waiter.lock == lock with
  | none => { simulation with surroundings := { simulation.surroundings with locks } }
  | some waiter =>
      { simulation.enqueue waiter.strand with
        surroundings := { simulation.surroundings with locks := locks.hold lock }
        waiters := simulation.waiters.eraseP fun waiter => waiter.lock == lock }

def strandOf (simulation : Simulation) (parent : Strand) (gathering : Nat)
    (item : Nat × Operation) : Strand where
  ofCall := parent.ofCall
  place := some (gathering, item.1)
  task := simulation.manager.program item.2

def fork (simulation : Simulation) (strand : Strand) (width : Nat) (work : List Operation)
    (next : List Result → Program Result) : Simulation :=
  if work.isEmpty then simulation.goOn strand (next [])
  else
    let items := work.zipIdx.map Prod.swap
    let id := simulation.nextGathering
    let gathering : Gathering :=
      { id, size := items.length, waiting := items.drop width, parent := strand, next }
    let started := (items.take width).map (simulation.strandOf strand id)
    { simulation.enqueueFirst strand.ofCall started with
      running := none
      gatherings := gathering :: simulation.gatherings
      nextGathering := id + 1 }

def detach (simulation : Simulation) (work : List Operation) : Simulation :=
  let strands := work.map fun operation =>
    { ofCall := false, task := simulation.manager.program operation : Strand }
  { simulation with readyDetached := simulation.readyDetached ++ strands }

def inOrder (results : List (Nat × Result)) : List Result :=
  (results.mergeSort fun left right => left.1 ≤ right.1).map Prod.snd

/-- Puts the result of a strand into its place.  The next item of work begins, or the strand that
handed out the work goes on once all results are there. -/
def gather (simulation : Simulation) (id place : Nat) (result : Result) : Simulation :=
  let others := simulation.gatherings.filter fun gathering => gathering.id != id
  match simulation.gatherings.find? fun gathering => gathering.id == id with
  | none => { simulation with running := none }
  | some gathering =>
      let results := (place, result) :: gathering.results
      match gathering.waiting with
      | item :: waiting =>
          { simulation.enqueue (simulation.strandOf gathering.parent id item) with
            running := none
            gatherings := { gathering with results, waiting } :: others }
      | [] =>
          if results.length < gathering.size then
            { simulation with
              running := none
              gatherings := { gathering with results } :: others }
          else
            { simulation.goOn gathering.parent (gathering.next (inOrder results)) with
              gatherings := others }

def finish (simulation : Simulation) (strand : Strand) (result : Result) : Simulation :=
  match strand.place with
  | some (id, place) => simulation.gather id place result
  | none =>
      { simulation with
        running := none
        result := if strand.ofCall then some result else simulation.result }

def silence : Provisioner.Channel Id where
  exchange := fun _ => pure none
  querySerial := fun _ _ _ => pure { outcome := .timeout, serial := none, attempts := 0 }

def stamps : Effect → Bool
  | .storeRow _ _ _ _ | .deliver _ => true
  | _ => false

def advance (simulation : Simulation) (strand : Strand) : Simulation :=
  match strand.task with
  | .done result => simulation.finish strand result
  | .perform (.pause millis) next => simulation.sleep strand millis (next ())
  | .perform (.pauseUpTo millis) next => simulation.sleep strand millis (next ())
  | .perform (.awaitTick moment) next => simulation.awaitTick strand moment next
  | .perform .stopTimers next => simulation.stopTimers.goOn strand (next ())
  | .perform (.acquire lock) next => simulation.acquire strand lock (next ())
  | .perform (.release lock) next => (simulation.release lock).goOn strand (next ())
  | .perform (.fork width work) next => simulation.fork strand width work next
  | .perform (.detach work) next => (simulation.detach work).goOn strand (next ())
  | .perform (.probe kind zone server options) next =>
      let (answer, network) :=
        simulation.network.answer ⟨simulation.elapsed, kind, zone, server, options⟩
      { simulation with network }.sleep strand answer.delay (next (answer.probe options))
  | .perform effect next =>
      let (reply, surroundings) :=
        (Surroundings.answer silence simulation.clock effect).run simulation.surroundings
      let answered := { simulation with surroundings }.goOn strand (next reply)
      if stamps effect then answered.tick else answered

/-- Moves the clock to the next moment that a strand waits for, and wakes those that wait for it.
Without a value when no strand waits for time. -/
def passTime? (simulation : Simulation) : Option Simulation := do
  let moment ← (simulation.sleepers.map Sleeper.moment).min?
  let due := simulation.sleepers.filter fun sleeper => sleeper.moment == moment
  let later := { simulation with
    elapsed := moment
    sleepers := simulation.sleepers.filter fun sleeper => sleeper.moment != moment }
  return (due.map Sleeper.strand).foldl enqueue later

/-- One step: of the running strand, or else of the next one that need not wait, or else the clock
moves.  Without a value when the call has its result, and when nothing can move. -/
def step? (simulation : Simulation) : Option Simulation :=
  if simulation.result.isSome then none
  else
    match simulation.running, simulation.ready, simulation.readyDetached with
    | some strand, _, _ => some (simulation.advance strand)
    | none, strand :: ready, _ => some { simulation with running := some strand, ready }
    | none, [], strand :: readyDetached =>
        some { simulation with running := some strand, readyDetached }
    | none, [], [] => simulation.passTime?

def run (simulation : Simulation) : (steps : Nat) → Simulation
  | 0 => simulation
  | steps + 1 =>
      match simulation.step? with
      | some next => next.run steps
      | none => simulation

def mostSteps : Nat := Nat.pow 2 62

def call (simulation : Simulation) (program : Program Result) : Option Result × Simulation :=
  let strand := { ofCall := true, task := program : Strand }
  let after := { simulation.tick with running := some strand }.run mostSteps
  (after.result, { after with result := none })

def askAtOnce {α : Type} (simulation : Simulation) (program : Program α) : α × Simulation :=
  let (value, surroundings) :=
    (program.run (m := StateT Surroundings Id)
      (Surroundings.answer silence simulation.clock)).run simulation.surroundings
  (value, { simulation with surroundings })

end Simulation

end ZonePropagation
