import ZonePropagation.Command
import ZonePropagation.Fault.Diagnostic
import ZonePropagation.Propagation.Program
import ZonePropagation.Propagation.Surroundings
import ZonePropagation.Registry.Drift
import ZonePropagation.Settings.Environment
import ZonePropagation.Settings.Reader
import ZonePropagation.Settings.Topology
/-!
What the commands do.

A command reads the settings, builds from them what it needs, and works.  It ends with lines of
output and, if it failed, the cause.
-/

namespace ZonePropagation.Session

open Propagation

inductive Failure where
  | settings (cause : SettingsError)
  | fault (cause : Fault)
  | address (spelling : String)
  | drifted (zone : String) (server : Nameserver)
deriving DecidableEq, Repr

def Failure.diagnostic : Failure → String
  | .settings cause => cause.diagnostic
  | .fault cause => cause.diagnostic
  | .address spelling => Text.quoted s!"invalid nameserver address: {spelling}"
  | .drifted zone server =>
      Text.quoted s!"{zone} on {server.key} has drifted from the central store"

/-- What a command told: its output, and why it failed if it did. -/
structure Transcript where
  lines : List String := []
  failure : Option Failure := none
deriving Repr

/-- What a command needs of the world.  A manager is let run for that many ticks of its timers. -/
structure Host (m : Type → Type) where
  settingsText : String → m (Except String String)
  environment : m Environment
  transport : Transport m
  exchange : Http.Request → m (Option Http.Response)
  clock : m Status.Clock
  openStatus : StatusStoreSetting → m (Except Fault Status.Store)
  openRegistry : String → m (Except Fault Registry.Store)
  ticks : Nat

/-- A manager at work, with the client it probes nameservers by. -/
structure Workplace where
  settings : Settings
  client : Client
  manager : Manager
  surroundings : Surroundings

abbrev Work (m : Type → Type) := ExceptT Failure m

variable {m : Type → Type} [Monad m]

def settled {α : Type} (result : Except SettingsError α) : Work m α :=
  ExceptT.mk (pure (result.mapError .settings))

def faultless {α : Type} (result : Except Fault α) : Work m α :=
  ExceptT.mk (pure (result.mapError .fault))

def attempt {α : Type} (action : m (Except Fault α)) : Work m α :=
  ExceptT.mk do return (← action).mapError .fault

def readSettings (host : Host m) : Option String → Work m Settings
  | none => return {}
  | some path => do
      match ← (host.settingsText path : m (Except String String)) with
      | .error reason => throw (.settings (.unreadable path reason))
      | .ok text => settled (Settings.ofText text)

def loadSettings (host : Host m) (path : Option String) : Work m Settings := do
  let start ← readSettings host path
  let environment ← (host.environment : m Environment)
  let (settings, failed) := start.overridden environment
  match failed with
  | some cause => throw (.settings cause)
  | none =>
      settled settings.validate
      return settings

def openWorkplace (host : Host m) (settings : Settings) : Work m Workplace := do
  let topology := settings.topology
  let client ← settled settings.client
  let backends ← faultless (Backends.ofTopology topology)
  let status ← attempt (host.openStatus settings.statusStore)
  let registry ← attempt (host.openRegistry settings.registryUrl)
  return {
    settings
    client
    manager := ⟨topology, settings.verification⟩
    surroundings := { status, registry, backends } }

def serverAt (spelling : String) : Work m Nameserver :=
  match Nameserver.ofText? spelling with
  | some server => return server
  | none => throw (.address spelling)

def zoneNamed (workplace : Workplace) (name : String) : Work m Zone :=
  faultless (workplace.surroundings.registry.findZone { name := some name })

def site (host : Host m) (client : Client) : Site m where
  channel := ⟨host.exchange, client.querySerial host.transport⟩
  probe := fun kind zone server options =>
    match kind with
    | .announcement => client.notify host.transport zone server options
    | .question => client.querySerial host.transport zone server options
  pause := host.transport.pause
  clock := host.clock

def performing {α : Type} (host : Host m) (workplace : Workplace) (program : Program α) :
    m (α × Workplace) := do
  let site := site host workplace.client
  let (value, surroundings) ←
    (program.run (alone workplace.manager site depth)).run workplace.surroundings
  return (value, { workplace with surroundings })

def statusWord : Status → String
  | .pending => "Pending"
  | .success => "Success"
  | .error => "Error"

def progressText : Progress → String
  | .verifying => "Verifying"
  | .backendsFailed => "BackendFailed"
  | .decided status => labelled "ConsensusReached" (statusWord status)

def targetLine (found : TargetSerial) : String :=
  let told := match found.serial with
    | .ok (some serial) => toString serial
    | .ok none => "zone not present"
    | .error reason => "error: " ++ reason
  s!"{found.target} ({found.backendType}): {told}"

def driftLines (zone : Zone) (server : Nameserver) (drift : Drift) : List String :=
  if drift.isNone then
    [s!"{zone.name} on {server.key} matches the central store ({drift.served} rrsets)"]
  else
    (drift.missing.map fun set => s!"missing on {server.key}: {set.owner} {set.type}") ++
      drift.unexpected.map fun set => s!"unexpected on {server.key}: {set.owner} {set.type}"

def propagate (host : Host m) (workplace : Workplace) (name : String)
    (action : Option ZoneAction) : m (Except Failure Transcript × Workplace) := do
  match ← (zoneNamed workplace name).run with
  | .error failure => return (.error failure, workplace)
  | .ok found =>
      let zone := { found with action := action.getD found.action }
      let (progress, after) ←
        performing host workplace (workplace.manager.propagatePending zone).run
      let transcript := (progress.mapError .fault).map fun progress =>
        { lines := [s!"{zone.name} {zone.action.text}: {progressText progress}"] }
      return (transcript, after)

def targetSerials (host : Host m) (workplace : Workplace) (pool zone : String) :
    m (Except Failure Transcript × Workplace) := do
  let (found, after) ←
    performing host workplace (workplace.manager.targetSerials pool zone).run
  return ((found.mapError .fault).map fun found => { lines := found.map targetLine }, after)

/-- The longest wait for the next message of a transfer, in milliseconds. -/
def transferWait : Nat := 30000

def checkDrift (host : Host m) (workplace : Workplace) (name : String) (server : Nameserver) :
    Work m Transcript := do
  let zone ← zoneNamed workplace name
  let stored ← faultless (workplace.surroundings.registry.findRecords zone.id)
  let received ← attempt
    (workplace.client.transferZone host.transport zone.name server transferWait)
  let drift := Drift.between stored received
  return {
    lines := driftLines zone server drift
    failure := if drift.isNone then none else some (.drifted name server) }

def notify (host : Host m) (settings : Settings) (zone : String) (server : Nameserver) :
    Work m Transcript := do
  let client ← settled settings.client
  let found ← (client.notify host.transport zone server settings.verification.probe : m Probe)
  return { lines :=
    [s!"NOTIFY {zone} to {server.key}: {found.outcome.text} after {found.attempts} attempts"] }

def serial (host : Host m) (settings : Settings) (zone : String) (server : Nameserver) :
    Work m Transcript := do
  let client ← settled settings.client
  let found ← (client.querySerial host.transport zone server settings.verification.probe : m Probe)
  let told := match found.serial with
    | some serial => s!"serial {serial}"
    | none => found.outcome.text
  return { lines := [s!"{zone} on {server.key}: {told}"] }

/-- The first of the timers that are due soonest, each with the moment when it is due. -/
def soonest : List (Timer × Nat) → Option (Timer × Nat)
  | [] => none
  | first :: rest => some (rest.foldl (fun best next => if next.2 < best.2 then next else best) first)

/-- Waits for the timer that is due next, lets it tick, and so on for a number of ticks. -/
def watch (host : Host m) (policy : ReconciliationPolicy) (workplace : Workplace)
    (due : List (Timer × Nat)) : (count : Nat) → m Workplace
  | 0 => return workplace
  | count + 1 => do
      match soonest due with
      | none => return workplace
      | some (timer, moment) =>
          let before ← host.clock
          host.transport.pause (moment - before.elapsed)
          let came ← host.clock
          let (_, after) ← performing host workplace (policy.tick timer).run
          let next := nextTick moment came.elapsed (policy.period timer)
          let others := due.filter fun entry => entry.1 != timer
          watch host policy after (others ++ [(timer, next)]) count

def runManager (host : Host m) (settings : Settings) (workplace : Workplace) : m Workplace := do
  let policy := settings.reconciliation
  let start ← host.clock
  let due := policy.timers.map fun timer => (timer, start.elapsed + policy.period timer)
  watch host policy workplace due host.ticks

/-- What a command leaves behind: what it told, and its workplace if it had one. -/
structure Aftermath where
  transcript : Transcript
  workplace : Option Workplace := none

def Aftermath.of (work : Work m Transcript) : m Aftermath := do
  match ← work.run with
  | .ok transcript => return { transcript }
  | .error failure => return { transcript := { failure := some failure } }

def Aftermath.at (host : Host m) (settings : Settings)
    (work : Workplace → m (Except Failure Transcript × Workplace)) : m Aftermath := do
  match ← (openWorkplace host settings).run with
  | .error failure => return { transcript := { failure := some failure } }
  | .ok workplace =>
      let (result, after) ← work workplace
      match result with
      | .ok transcript => return { transcript, workplace := some after }
      | .error failure =>
          return { transcript := { failure := some failure }, workplace := some after }

def execute (host : Host m) (settings : Settings) : Command → m Aftermath
  | .run => Aftermath.at host settings fun workplace => do
      return (.ok {}, ← runManager host settings workplace)
  | .propagate zone action => Aftermath.at host settings fun workplace =>
      propagate host workplace zone action
  | .targetSerials pool zone => Aftermath.at host settings fun workplace =>
      targetSerials host workplace pool zone
  | .notify zone spelling => Aftermath.of do
      notify host settings zone (← serverAt spelling)
  | .serial zone spelling => Aftermath.of do
      serial host settings zone (← serverAt spelling)
  | .checkDrift zone spelling => do
      match ← (serverAt (m := m) spelling).run with
      | .error failure => return { transcript := { failure := some failure } }
      | .ok server => Aftermath.at host settings fun workplace => do
          return (← (checkDrift host workplace zone server).run, workplace)

def run (host : Host m) (invocation : Invocation) : m Aftermath := do
  match ← (loadSettings host invocation.settingsPath).run with
  | .error failure => return { transcript := { failure := some failure } }
  | .ok settings => execute host settings invocation.command

end ZonePropagation.Session
