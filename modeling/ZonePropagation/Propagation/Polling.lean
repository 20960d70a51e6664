import ZonePropagation.Propagation.Effect
/-!
The verification of one nameserver.

It is told of the change, unless the change is a deletion, and asked for the serial of the zone
until its answer settles the question or the attempts are used up.  A deletion has arrived when
the zone is unknown, and any other change when the serial is the expected one or newer.
-/

namespace ZonePropagation.Propagation

inductive Finding where
  | arrived
  | undecided
  | failed
deriving DecidableEq, Repr

def Finding.ofProbe (action : ZoneAction) (expected : UInt32) (probe : Probe) : Finding :=
  match action, probe.outcome with
  | .delete, .noDomain _ => .arrived
  | .delete, .ok => .undecided
  | _, .noDomain _ => .undecided
  | _, .ok =>
      if probe.serial.any fun serial => Serial.isAtLeast serial expected then .arrived
      else .undecided
  | _, _ => .failed

def arrivedSerial (action : ZoneAction) (probe : Probe) : Option UInt32 :=
  if action = .delete then none else probe.serial

def probe (kind : ProbeKind) (zone : Zone) (server : Nameserver) (options : ProbeOptions) :
    Program Probe := do
  let found ← perform (.probe kind zone.name server options)
  measure (.probe kind found.outcome.label)
  return found

/-- Asks with `budget` attempts left, and again while the answer is undecided and attempts are
left.  Every question uses up an attempt at least, so that no more than `budget - 1` questions can
follow the first. -/
def ask (options : ProbeOptions) (zone : Zone) (server : Nameserver) (further budget : Nat) :
    Program (Status × Option UInt32) := do
  let found ← probe .question zone server { options with maxRetries := budget }
  match Finding.ofProbe zone.action zone.serial found with
  | .arrived => return (.success, arrivedSerial zone.action found)
  | .failed => return (.error, found.serial)
  | .undecided =>
      match further with
      | 0 => return (.error, found.serial)
      | further + 1 =>
          match budget - max 1 found.attempts with
          | 0 => return (.error, found.serial)
          | left + 1 =>
              perform (.pause options.retryInterval)
              ask options zone server further (left + 1)

/-- Polls a nameserver for the pending action of a zone. -/
def poll (policy : VerificationPolicy) (zone : Zone) (server : Nameserver) :
    Program (Status × Option UInt32) := do
  perform (.pause policy.pollDelay)
  unless zone.action = .delete do
    discard (probe .announcement zone server policy.probe)
  ask policy.probe zone server (policy.probe.budget - 1) policy.probe.budget

def verifyServer (policy : VerificationPolicy) (zone : Zone) (server : Nameserver) :
    Program (Status × Option UInt32) := do
  measure .verificationStarted
  let (status, serial) ← poll policy zone server
  measure (.verificationFinished zone.action status)
  return (status, serial)

end ZonePropagation.Propagation
