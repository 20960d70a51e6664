import ZonePropagation.Message.Error
import ZonePropagation.Octets
/-!
Domain names inside messages.

A written name is a sequence of length-prefixed labels closed by a zero octet.  A received name
may continue elsewhere through two-octet pointers.  A reader follows at most 64 pointers and
accepts at most 255 octets of labels with their length octets, so it ends on every input.
-/

namespace ZonePropagation.Name

def maxLabelOctets : Nat := 63

def maxPointers : Nat := 64

/-- The most octets of labels, length octets included, within one received name. -/
def maxNameOctets : Nat := 255

def writeLabel (label : String) : Except MessageError (List UInt8) :=
  if label.isEmpty then .ok []
  else if label.utf8ByteSize > maxLabelOctets then .error .label
  else .ok (label.utf8ByteSize.toUInt8 :: Octets.ofText label)

def write (labels : List String) : Except MessageError (List UInt8) := do
  let written ← labels.mapM writeLabel
  return written.flatten ++ [0]

def pointerTarget (high low : UInt8) : Nat :=
  (high &&& 0x3F).toNat * 256 + low.toNat

/--
Reads the rest of a name at `position` with `pointers` pointers and `room` octets left.

The second result is the position after the name as laid out here: after its zero octet or after
its first pointer, wherever that pointer leads.
-/
def readRest (message : Octets) (position pointers room : Nat) :
    Except MessageError (List String × Nat) :=
  match message[position]? with
  | none => .error .truncated
  | some first =>
      if first &&& 0xC0 == 0xC0 then
        match message[position + 1]? with
        | none => .error .truncated
        | some second =>
            match pointers with
            | 0 => .error .compressionLoop
            | fewer + 1 =>
                match readRest message (pointerTarget first second) fewer room with
                | .error error => .error error
                | .ok (labels, _) => .ok (labels, position + 2)
      else if first &&& 0xC0 != 0 then .error .label
      else if empty : first.toNat = 0 then .ok ([], position + 1)
      else
        match Octets.slice? message (position + 1) first.toNat with
        | none => .error .truncated
        | some octets =>
            if _fits : first.toNat + 1 ≤ room then
              match Octets.text? octets with
              | none => .error .label
              | some label =>
                  match readRest message (position + 1 + first.toNat) pointers
                      (room - (first.toNat + 1)) with
                  | .error error => .error error
                  | .ok (labels, next) => .ok (label :: labels, next)
            else .error .label
termination_by (pointers, room)

def read (message : Octets) (position : Nat) : Except MessageError (List String × Nat) :=
  readRest message position maxPointers maxNameOctets

end ZonePropagation.Name
