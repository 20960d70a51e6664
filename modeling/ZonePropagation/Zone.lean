import ZonePropagation.Name
import ZonePropagation.Serial
import ZonePropagation.Text.Lowercase
import ZonePropagation.Time.Timestamp
/-!
Zones as the registry holds them, and what a verdict makes of one.

A zone has a pending action.  A verdict of success completes it: a deletion removes the zone, and
any other action leaves the zone active with no action and never with an older serial.
-/

namespace ZonePropagation

inductive ZoneAction where
  | create
  | update
  | delete
  | none
deriving DecidableEq, Repr, Inhabited

inductive ZoneStatus where
  | pending
  | active
  | error
deriving DecidableEq, Repr, Inhabited

inductive Status where
  | pending
  | success
  | error
deriving DecidableEq, Repr, Inhabited

/-- A text that names no value of a kind; it is kept with its ASCII letters large. -/
structure UnknownWord where
  kind : String
  word : String
deriving DecidableEq, Repr

def UnknownWord.message (unknown : UnknownWord) : String :=
  s!"invalid {unknown.kind}: {unknown.word}"

/-- The value among `all` whose text is the word up to ASCII case. -/
def valueOfWord {α : Type} (kind : String) (text : α → String) (all : List α) (word : String) :
    Except UnknownWord α :=
  match all.find? fun value => text value == word.toUpper with
  | some value => .ok value
  | none => .error ⟨kind, word.toUpper⟩

namespace ZoneAction

def text : ZoneAction → String
  | .create => "CREATE"
  | .update => "UPDATE"
  | .delete => "DELETE"
  | .none => "NONE"

def all : List ZoneAction := [.create, .update, .delete, .none]

def ofText (word : String) : Except UnknownWord ZoneAction :=
  valueOfWord "ZoneAction" text all word

/-- The action under which results are kept: a zone that waits for nothing is checked as an
update. -/
def effective : ZoneAction → ZoneAction
  | .none => .update
  | action => action

end ZoneAction

namespace ZoneStatus

def text : ZoneStatus → String
  | .pending => "PENDING"
  | .active => "ACTIVE"
  | .error => "ERROR"

def all : List ZoneStatus := [.pending, .active, .error]

def ofText (word : String) : Except UnknownWord ZoneStatus :=
  valueOfWord "ZoneStatus" text all word

end ZoneStatus

namespace Status

def text : Status → String
  | .pending => "PENDING"
  | .success => "SUCCESS"
  | .error => "ERROR"

def all : List Status := [.pending, .success, .error]

def ofText (word : String) : Except UnknownWord Status :=
  valueOfWord "Status" text all word

end Status

structure Zone where
  id : String
  name : String
  serial : UInt32
  action : ZoneAction
  status : ZoneStatus
  poolId : String
  updatedAt : Timestamp
deriving DecidableEq, Repr, Inhabited

/-- A record kept for a zone, with its type as an operator wrote it. -/
structure StoredRecord where
  zoneId : String
  name : String
  type : String
  data : String
  ttl : Option UInt32
deriving DecidableEq, Repr, Inhabited

namespace Zone

def normalName (name : String) : String :=
  let small := Text.lowercase name
  if small.endsWith "." then small else small ++ "."

def fresh (id name : String) (serial : UInt32) (poolId : String) (now : Timestamp) : Zone where
  id
  name := normalName name
  serial
  action := .create
  status := .pending
  poolId
  updatedAt := now

def advanced (current confirmed : UInt32) : UInt32 :=
  if Serial.isNewer confirmed current then confirmed else current

/-- What a verdict makes of a zone, and whether the zone is removed. -/
def judged (zone : Zone) (verdict : Status) (serial : UInt32) (now : Timestamp) : Zone × Bool :=
  let touched := { zone with updatedAt := now }
  match verdict with
  | .success =>
      if zone.action = .delete then (touched, true)
      else
        ({ touched with
          status := .active
          action := .none
          serial := advanced zone.serial serial }, false)
  | .error => ({ touched with status := .error }, false)
  | .pending => ({ touched with status := .pending }, false)

end Zone

end ZonePropagation
