import ZonePropagation.Command
/-!
The reading of command lines.

Arguments are read from left to right, and the first that ends the reading decides its outcome:
a request for help or the version, or a mistake.  Options that concern the program itself may stand
before and after the word of the command; after it they take precedence.
-/

namespace ZonePropagation.Command

inductive Parameter where
  | config
  | logLevel
  | action
deriving DecidableEq, Repr

inductive Ending where
  | help (topic : Option Topic)
  | version
  | mistake
deriving DecidableEq, Repr

structure Reading where
  settingsPath : Option String := none
  logLevel : Option String := none
  action : Option ZoneAction := none
  places : List String := []
deriving Repr

namespace Reading

def withValue (reading : Reading) (option : Parameter) (value : String) : Except Ending Reading :=
  match option with
  | .config =>
      if reading.settingsPath.isSome || value.isEmpty then .error .mistake
      else .ok { reading with settingsPath := some value }
  | .logLevel =>
      if reading.logLevel.isSome then .error .mistake
      else .ok { reading with logLevel := some value }
  | .action =>
      match reading.action, ZoneAction.ofText value with
      | none, .ok action => .ok { reading with action := some action }
      | _, _ => .error .mistake

def withPlace (reading : Reading) (most : Nat) (value : String) : Except Ending Reading :=
  if reading.places.length < most then .ok { reading with places := reading.places ++ [value] }
  else .error .mistake

end Reading

inductive Argument where
  | divider
  | long (name : String) (value : Option String)
  | short (letters : List Char)
  | plain (text : String)
deriving DecidableEq, Repr

def splitValue (text : List Char) : String × Option String :=
  let name := String.ofList (text.takeWhile fun character => character != '=')
  match text.dropWhile fun character => character != '=' with
  | [] => (name, none)
  | _ :: value => (name, some (String.ofList value))

def Argument.ofText (text : String) : Argument :=
  match text.toList with
  | ['-', '-'] => .divider
  | '-' :: '-' :: rest =>
      let (name, value) := splitValue rest
      .long name value
  | '-' :: letter :: letters => .short (letter :: letters)
  | _ => .plain text

/-- What an option asks for: an end of the reading, or a value, which it may bring along. -/
inductive Demand where
  | ends (ending : Ending)
  | takes (option : Parameter) (value : Option String)
deriving DecidableEq, Repr

/-- The demand of a long option.  Requests for help or the version take no value. -/
def longDemand (topic : Option Topic) (name : String) (value : Option String) : Demand :=
  match name, value with
  | "config", _ => .takes .config value
  | "log-level", _ => .takes .logLevel value
  | "help", none => .ends (.help topic)
  | "action", _ => if topic = some .propagate then .takes .action value else .ends .mistake
  | "version", none => .ends (if topic = none then .version else .mistake)
  | _, _ => .ends .mistake

/-- The demand of the first of some letters.  What follows the letter of an option with a value is
the value, after an equals sign or not. -/
def shortDemand (topic : Option Topic) : List Char → Demand
  | ['c'] => .takes .config none
  | 'c' :: '=' :: value => .takes .config (some (String.ofList value))
  | 'c' :: value => .takes .config (some (String.ofList value))
  | 'h' :: _ => .ends (.help topic)
  | 'V' :: _ => .ends (if topic = none then .version else .mistake)
  | _ => .ends .mistake

def Argument.demand? (topic : Option Topic) : Argument → Option Demand
  | .long name value => some (longDemand topic name value)
  | .short letters => some (shortDemand topic letters)
  | _ => none

def readPlaces (most : Nat) (reading : Reading) (arguments : List String) :
    Except Ending Reading :=
  arguments.foldlM (fun reading text => reading.withPlace most text) reading

def Reading.withNext (reading : Reading) (option : Parameter) (next : String) :
    Except Ending Reading :=
  match Argument.ofText next with
  | .plain value => reading.withValue option value
  | _ => .error .mistake

def readAfter (topic : Topic) (reading : Reading) : List String → Except Ending Reading
  | [] => .ok reading
  | text :: rest =>
      let argument := Argument.ofText text
      match argument.demand? (some topic) with
      | some (.ends ending) => .error ending
      | some (.takes option (some value)) => do
          readAfter topic (← reading.withValue option value) rest
      | some (.takes option none) =>
          match rest with
          | [] => .error .mistake
          | next :: rest => do readAfter topic (← reading.withNext option next) rest
      | none =>
          if argument = .divider then readPlaces topic.places.length reading rest
          else do readAfter topic (← reading.withPlace topic.places.length text) rest

def ofReading (topic : Topic) (reading : Reading) : Except Ending Command :=
  match topic, reading.places with
  | .run, [] => .ok .run
  | .propagate, [zone] => .ok (.propagate zone reading.action)
  | .notify, [zone, server] => .ok (.notify zone server)
  | .serial, [zone, server] => .ok (.serial zone server)
  | .targetSerials, [pool, zone] => .ok (.targetSerials pool zone)
  | .checkDrift, [zone, server] => .ok (.checkDrift zone server)
  | _, _ => .error .mistake

def helpEnding : List String → Ending
  | [] => .help none
  | [word] => ((Topic.ofWord? word).map fun topic => .help (some topic)).getD .mistake
  | _ => .mistake

def readCommand (reading : Reading) (topic : Topic) (rest : List String) :
    Except Ending Invocation := do
  let after ← readAfter topic {} rest
  let command ← ofReading topic after
  return {
    settingsPath := after.settingsPath.or reading.settingsPath
    logLevel := after.logLevel.or reading.logLevel
    command }

/-- Reads the arguments up to the word of a command, and the rest by the command. -/
def readBefore (reading : Reading) : List String → Except Ending Invocation
  | [] => .error .mistake
  | text :: rest =>
      match (Argument.ofText text).demand? none with
      | some (.ends ending) => .error ending
      | some (.takes option (some value)) => do
          readBefore (← reading.withValue option value) rest
      | some (.takes option none) =>
          match rest with
          | [] => .error .mistake
          | next :: rest => do readBefore (← reading.withNext option next) rest
      | none =>
          if text = "help" then .error (helpEnding rest)
          else
            match Topic.ofWord? text with
            | some topic => readCommand reading topic rest
            | none => .error .mistake

def ofArguments (arguments : List String) : Except Ending Invocation :=
  readBefore {} arguments

end ZonePropagation.Command
