/-!
Base64 with the standard alphabet and required canonical padding.

The text is read four symbols at a time; padding is allowed in the last group only.  Failures
name the octet at fault and its offset, in the order in which a reader meets them.
-/

namespace ZonePropagation.Text

inductive Base64Error where
  | symbol (octet : UInt8) (offset : Nat)
  | length (count : Nat)
  | lastSymbol (octet : UInt8) (offset : Nat)
  | padding
deriving DecidableEq, Repr

def Base64Error.message : Base64Error → String
  | .symbol octet offset => s!"Invalid symbol {octet}, offset {offset}."
  | .length count => s!"Invalid input length: {count}"
  | .lastSymbol octet offset => s!"Invalid last symbol {octet}, offset {offset}."
  | .padding => "Invalid padding"

namespace Base64

def value? (octet : UInt8) : Option UInt32 :=
  if 65 ≤ octet && octet ≤ 90 then some (octet.toUInt32 - 65)
  else if 97 ≤ octet && octet ≤ 122 then some (octet.toUInt32 - 71)
  else if 48 ≤ octet && octet ≤ 57 then some (octet.toUInt32 + 4)
  else if octet == 43 then some 62
  else if octet == 47 then some 63
  else none

def pad : UInt8 := 61

def symbol (octet : UInt8) (offset : Nat) : Except Base64Error UInt32 :=
  match value? octet with
  | some bits => .ok bits
  | none => .error (.symbol octet offset)

structure Tail where
  bits : List UInt32 := []
  last : UInt8 := 0
  pads : Nat := 0
  firstPad : Nat := 0

/-- Reads the symbols of the last group, `index` counted from its start at `offset`. -/
def readTail (offset : Nat) : Nat → Tail → List UInt8 → Except Base64Error Tail
  | _, tail, [] => .ok tail
  | index, tail, octet :: rest =>
      if octet == pad then
        if index < 2 then .error (.symbol octet (offset + index))
        else
          let first := if tail.pads == 0 then index else tail.firstPad
          readTail offset (index + 1) { tail with pads := tail.pads + 1, firstPad := first } rest
      else if tail.pads > 0 then .error (.symbol pad (offset + tail.firstPad))
      else do
        let bits ← symbol octet (offset + index)
        readTail offset (index + 1)
          { tail with bits := tail.bits ++ [bits], last := octet } rest

def decodeTail (offset : Nat) (group : List UInt8) : Except Base64Error (List UInt8) := do
  let tail ← readTail offset 0 {} group
  let count := tail.bits.length
  if count < 2 then
    if offset == 0 && group.isEmpty then return []
    throw (.length (offset + count))
  if (tail.pads + count) % 4 ≠ 0 then throw .padding
  let symbols := tail.bits ++ List.replicate (4 - count) (0 : UInt32)
  let word := symbols.foldl (fun (word bits : UInt32) => word <<< 6 ||| bits) 0
  let octets := [(word >>> 16).toUInt8, (word >>> 8).toUInt8, word.toUInt8]
  let whole := count * 6 / 8
  if (octets.drop whole).any (· ≠ 0) then throw (.lastSymbol tail.last (offset + count - 1))
  return octets.take whole

/-- Decodes groups of four until at most four symbols are left. -/
def decodeGroups (offset : Nat) : List UInt8 → Except Base64Error (List UInt8)
  | first :: second :: third :: fourth :: next :: rest => do
      let high ← symbol first offset
      let upper ← symbol second (offset + 1)
      let lower ← symbol third (offset + 2)
      let low ← symbol fourth (offset + 3)
      let word := high <<< 18 ||| upper <<< 12 ||| lower <<< 6 ||| low
      let tail ← decodeGroups (offset + 4) (next :: rest)
      return (word >>> 16).toUInt8 :: (word >>> 8).toUInt8 :: word.toUInt8 :: tail
  | group => decodeTail offset group

/-- A last octet outside the alphabet is reported first when one symbol stands alone. -/
def strayLast? (octets : List UInt8) : Option Base64Error :=
  if octets.length % 4 == 1 then
    match octets.getLast? with
    | some octet =>
        if octet ≠ pad && (value? octet).isNone then some (.symbol octet (octets.length - 1))
        else none
    | none => none
  else none

def decode (octets : List UInt8) : Except Base64Error (List UInt8) :=
  match strayLast? octets with
  | some error => .error error
  | none => decodeGroups 0 octets

def symbolOf (bits : UInt8) : UInt8 :=
  if bits < 26 then bits + 65
  else if bits < 52 then bits + 71
  else if bits < 62 then bits - 4
  else if bits == 62 then 43
  else 47

def encode : List UInt8 → List UInt8
  | first :: second :: third :: rest =>
      [symbolOf (first >>> 2), symbolOf ((first <<< 4 ||| second >>> 4) &&& 63),
        symbolOf ((second <<< 2 ||| third >>> 6) &&& 63), symbolOf (third &&& 63)] ++ encode rest
  | [first, second] =>
      [symbolOf (first >>> 2), symbolOf ((first <<< 4 ||| second >>> 4) &&& 63),
        symbolOf ((second <<< 2) &&& 63), pad]
  | [first] => [symbolOf (first >>> 2), symbolOf ((first <<< 4) &&& 63), pad, pad]
  | [] => []

end Base64

end ZonePropagation.Text
