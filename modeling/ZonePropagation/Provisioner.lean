import ZonePropagation.Fault
import ZonePropagation.Http.Client
import ZonePropagation.Pool
import ZonePropagation.Probe
import ZonePropagation.Text.Numeral
import ZonePropagation.Zone
/-!
What the drivers of backends have in common: the changes they make, what they need of their
surroundings, and the options of a target that they read.
-/

namespace ZonePropagation

inductive ZoneChange where
  | create
  | update
  | delete
deriving DecidableEq, Repr

def ZoneAction.change : ZoneAction → ZoneChange
  | .create => .create
  | .delete => .delete
  | _ => .update

def ZoneChange.text : ZoneChange → String
  | .create => "create"
  | .update => "update"
  | .delete => "delete"

namespace Provisioner

/-- What drivers need of their surroundings.  An exchange has no value when no response came. -/
structure Channel (m : Type → Type) where
  exchange : Http.Request → m (Option Http.Response)
  querySerial : String → Nameserver → ProbeOptions → m Probe

/-- A response to a call that either succeeded, found nothing or met what is there already. -/
def isExpected (response : Http.Response) : Bool :=
  response.isSuccess || response.status == 404 || response.status == 409

def requiredOption (target : Target) (name : String) : Except Fault String :=
  match target.option? name with
  | some value => .ok value
  | none => .error (.backend target.backendType s!"target {target.id} is missing option {name}")

def defaultTimeout : Nat := 10

def timeoutOption (target : Target) : Except Fault Nat :=
  match target.option? "timeout" with
  | none => .ok defaultTimeout
  | some value =>
      match Text.numeral? 18446744073709551615 (Text.trim value) with
      | some seconds => .ok seconds
      | none => .error (.backend target.backendType
          s!"option timeout is not a number of seconds: {value}")

end Provisioner

end ZonePropagation
