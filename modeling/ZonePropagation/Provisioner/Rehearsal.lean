import ZonePropagation.Provisioner
import ZonePropagation.Text.Lowercase
/-!
A target that only remembers what it was told, for rehearsals.  It counts every call, also those
that it was set to refuse.
-/

namespace ZonePropagation.Provisioner

structure Rehearsal where
  refusing : Bool := false
  creates : Nat := 0
  updates : Nat := 0
  deletes : Nat := 0
  serials : List (String × UInt32) := []
deriving Repr

namespace Rehearsal

def type : String := "fake"

/-- The driver of a target, which may be set to refuse every change. -/
def ofTarget (target : Target) : Rehearsal where
  refusing := (target.option? "fail").any fun word =>
    ["true", "1", "yes"].contains (Text.lowercase word)

def count (rehearsal : Rehearsal) : ZoneChange → Rehearsal
  | .create => { rehearsal with creates := rehearsal.creates + 1 }
  | .update => { rehearsal with updates := rehearsal.updates + 1 }
  | .delete => { rehearsal with deletes := rehearsal.deletes + 1 }

def carryOut (rehearsal : Rehearsal) (change : ZoneChange) (zone : Zone) :
    Except Fault Unit × Rehearsal :=
  let counted := rehearsal.count change
  let others := rehearsal.serials.filter fun entry => entry.1 != zone.name
  if rehearsal.refusing then
    (.error (.backend type s!"forced failure on {change.text} {zone.name}"), counted)
  else
    match change with
    | .delete => (.ok (), { counted with serials := others })
    | _ => (.ok (), { counted with serials := (zone.name, zone.serial) :: others })

def serial? (rehearsal : Rehearsal) (zone : String) : Option UInt32 :=
  (rehearsal.serials.find? fun entry => Name.sameName entry.1 zone).map Prod.snd

end Rehearsal

end ZonePropagation.Provisioner
