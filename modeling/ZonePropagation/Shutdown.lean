/-!
The orderly shutdown of what runs beside a manager.

A shutdown signals all who listen, gives work in flight some time to drain, starts to close all
components at once, and waits for each in turn.  A component that takes too long is no longer waited
for but goes on closing; how a component ends makes no difference.  Times are in milliseconds.
-/

namespace ZonePropagation

structure Component where
  name : String
  duration : Nat
deriving DecidableEq, Repr

namespace Shutdown

def defaultDrain : Nat := 500

def patience : Nat := 5000

structure Closing where
  name : String
  start : Nat
  finish : Nat
deriving DecidableEq, Repr

/-- The moment when waiting is over, and whether the last wait was given up. -/
structure Waited where
  moment : Nat
  gaveUp : Bool := false
deriving DecidableEq, Repr

def await (waited : Waited) (closing : Closing) : Waited :=
  let limit := waited.moment + patience
  if closing.finish < waited.moment then waited
  else if closing.finish < limit then ⟨closing.finish, false⟩
  else ⟨limit, true⟩

structure Run where
  closings : List Closing
  ended : Waited
deriving Repr

def run (components : List Component) (drain start : Nat) : Run :=
  let closings := components.map fun component =>
    ⟨component.name, start + drain, start + drain + component.duration⟩
  { closings, ended := closings.foldl await ⟨start + drain, false⟩ }

def runs (components : List Component) (drain : Nat) : (times start : Nat) → List Run
  | 0, _ => []
  | times + 1, start =>
      let first := run components drain start
      first :: runs components drain times first.ended.moment

structure Event where
  moment : Nat
  name : String
  isEnd : Bool
deriving DecidableEq, Repr

/-- The order of events: by moment, by name, and the start before the end. -/
def Event.precedes (left right : Event) : Bool :=
  left.moment < right.moment || (left.moment == right.moment &&
    (left.name < right.name || (left.name == right.name && (!left.isEnd || right.isEnd))))

/-- The events seen by the time that the last shutdown is over.  If that came by giving up a wait,
an end at this very moment is not seen any more. -/
def events (runs : List Run) : List Event :=
  let ended := (runs.getLast?.map Run.ended).getD ⟨0, false⟩
  let isSeen (finish : Nat) : Bool :=
    finish < ended.moment || (finish == ended.moment && !ended.gaveUp)
  let each (closing : Closing) : List Event :=
    ⟨closing.start, closing.name, false⟩ ::
      if isSeen closing.finish then [⟨closing.finish, closing.name, true⟩] else []
  ((runs.flatMap Run.closings).flatMap each).mergeSort Event.precedes

end Shutdown

end ZonePropagation
