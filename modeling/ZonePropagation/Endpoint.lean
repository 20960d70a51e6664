import ZonePropagation.Octets.Hex
/-!
Endpoints: an Internet address and a port, in their usual spelling.

A version 6 address is written in brackets, with the longest run of two or more zero groups left
out and the earliest of equally long runs; a mapped version 4 address keeps its dotted form.
-/

namespace ZonePropagation

/-- An Internet address.  A version 6 address has eight groups and a scope, which is mostly zero. -/
inductive InternetAddress where
  | version4 (first second third fourth : Nat)
  | version6 (groups : List Nat) (scope : Nat)
deriving DecidableEq, Repr

structure Endpoint where
  address : InternetAddress
  port : Nat
deriving DecidableEq, Repr

namespace InternetAddress

def dotted (first second third fourth : Nat) : String :=
  s!"{first}.{second}.{third}.{fourth}"

def colonGroups (groups : List Nat) : String :=
  ":".intercalate (groups.map fun group => String.ofList (Nat.toDigits 16 group))

def zeroRun (groups : List Nat) : Nat :=
  (groups.takeWhile (· == 0)).length

/-- The start and length of the longest run of zero groups, the earliest of equals. -/
def longestZeros (index : Nat) : List Nat → Nat × Nat
  | [] => (index, 0)
  | group :: rest =>
      let here := zeroRun (group :: rest)
      let later := longestZeros (index + 1) rest
      if later.2 > here then later else (index, here)

def text6 (groups : List Nat) : String :=
  match groups with
  | [0, 0, 0, 0, 0, 0xffff, high, low] =>
      "::ffff:" ++ dotted (high / 256) (high % 256) (low / 256) (low % 256)
  | _ =>
      let (start, length) := longestZeros 0 groups
      if length > 1 then
        colonGroups (groups.take start) ++ "::" ++ colonGroups (groups.drop (start + length))
      else colonGroups groups

/-! Reading -/

def number? (base : Nat) (width : Option Nat) (leadingZeros : Bool) (bound : Nat)
    (rest : List Char) : Option (Nat × List Char) :=
  let value? (character : Char) : Option Nat :=
    ((Octets.hexValue? character).map UInt8.toNat).filter (· < base)
  let digits := rest.takeWhile fun character => (value? character).isSome
  let value := (digits.filterMap value?).foldl (fun value digit => base * value + digit) 0
  let misplacedZero := !leadingZeros && digits.head? == some '0' && digits.length > 1
  if digits.isEmpty || misplacedZero || width.any (· < digits.length) || bound < value then none
  else some (value, rest.drop digits.length)

def after? (expected : Char) : List Char → Option (List Char)
  | character :: rest => if character == expected then some rest else none
  | [] => none

def read4? (rest : List Char) : Option ((Nat × Nat × Nat × Nat) × List Char) := do
  let octet := number? 10 (some 3) false 255
  let (first, rest) ← octet rest
  let (second, rest) ← octet (← after? '.' rest)
  let (third, rest) ← octet (← after? '.' rest)
  let (fourth, rest) ← octet (← after? '.' rest)
  return ((first, second, third, fourth), rest)

/-- Reads up to so many groups between colons.  The last two may be written in dotted form, which
the flag tells. -/
def readGroups (isFirst : Bool) : (room : Nat) → List Char → List Nat × Bool × List Char
  | 0, rest => ([], false, rest)
  | room + 1, rest =>
      let start := if isFirst then some rest else after? ':' rest
      let embedded := if room = 0 then none else start.bind read4?
      match embedded, start.bind (number? 16 (some 4) true 65535) with
      | some ((first, second, third, fourth), after), _ =>
          ([256 * first + second, 256 * third + fourth], true, after)
      | none, some (group, after) =>
          let (groups, dotted, last) := readGroups false room after
          (group :: groups, dotted, last)
      | none, none => ([], false, rest)

def read6? (rest : List Char) : Option (List Nat × List Char) := do
  let (front, dotted, afterFront) := readGroups true 8 rest
  if front.length = 8 then return (front, afterFront)
  if dotted then none
  let backStart ← after? ':' (← after? ':' afterFront)
  let (back, _, after) := readGroups true (7 - front.length) backStart
  return (front ++ List.replicate (8 - front.length - back.length) 0 ++ back, after)

def ofText6? (text : List Char) : Option (List Nat) :=
  (read6? text).bind fun read => if read.2.isEmpty then some read.1 else none

end InternetAddress

namespace Endpoint

open InternetAddress

def text (endpoint : Endpoint) : String :=
  match endpoint.address with
  | .version4 first second third fourth => s!"{dotted first second third fourth}:{endpoint.port}"
  | .version6 groups 0 => s!"[{text6 groups}]:{endpoint.port}"
  | .version6 groups scope => s!"[{text6 groups}%{scope}]:{endpoint.port}"

def port? (rest : List Char) : Option Nat := do
  let (port, after) ← number? 10 none true 65535 (← after? ':' rest)
  if after.isEmpty then return port else none

def ofText? (text : String) : Option Endpoint :=
  match text.toList with
  | '[' :: rest => do
      let (groups, afterGroups) ← read6? rest
      let (scope, afterScope) ← match afterGroups with
        | '%' :: digits => number? 10 none true 4294967295 digits
        | other => some (0, other)
      return ⟨.version6 groups scope, ← port? (← after? ']' afterScope)⟩
  | characters => do
      let ((first, second, third, fourth), after) ← read4? characters
      return ⟨.version4 first second third fourth, ← port? after⟩

end Endpoint

end ZonePropagation
