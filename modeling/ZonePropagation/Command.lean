import ZonePropagation.Zone
/-!
The commands of the program.
-/

namespace ZonePropagation

inductive Command where
  | run
  | propagate (zone : String) (action : Option ZoneAction)
  | notify (zone server : String)
  | serial (zone server : String)
  | targetSerials (pool zone : String)
  | checkDrift (zone server : String)
deriving DecidableEq, Repr

/-- A command with what was said about the program itself: the file of the settings and the
verbosity of its log. -/
structure Invocation where
  settingsPath : Option String := none
  logLevel : Option String := none
  command : Command
deriving DecidableEq, Repr

namespace Command

inductive Topic where
  | run
  | propagate
  | notify
  | serial
  | targetSerials
  | checkDrift
deriving DecidableEq, Repr

namespace Topic

def all : List Topic := [.run, .propagate, .notify, .serial, .targetSerials, .checkDrift]

def word : Topic → String
  | .run => "run"
  | .propagate => "propagate"
  | .notify => "notify"
  | .serial => "serial"
  | .targetSerials => "target-serials"
  | .checkDrift => "check-drift"

def ofWord? (word : String) : Option Topic :=
  all.find? fun topic => topic.word == word

/-- The arguments of a topic by place, each with its explanation. -/
def places : Topic → List (String × String)
  | .run => []
  | .propagate => [("ZONE", "Zone name")]
  | .targetSerials => [("POOL", ""), ("ZONE", "")]
  | _ => [("ZONE", ""), ("NAMESERVER", "")]

end Topic

end Command

end ZonePropagation
