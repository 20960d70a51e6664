/-!
Octet strings: received messages as arrays, written messages as lists, and the big-endian
integers both of them carry.  A read outside a received message has no value.
-/

namespace ZonePropagation

abbrev Octets := Array UInt8

namespace Octets

def ofUInt16 (value : UInt16) : List UInt8 :=
  [(value >>> 8).toUInt8, value.toUInt8]

def ofUInt32 (value : UInt32) : List UInt8 :=
  [(value >>> 24).toUInt8, (value >>> 16).toUInt8, (value >>> 8).toUInt8, value.toUInt8]

def ofUInt48 (value : UInt64) : List UInt8 :=
  [(value >>> 40).toUInt8, (value >>> 32).toUInt8, (value >>> 24).toUInt8,
    (value >>> 16).toUInt8, (value >>> 8).toUInt8, value.toUInt8]

/-- The eight octets of a 64-bit number, most significant first. -/
def ofUInt64 (value : UInt64) : List UInt8 :=
  [(value >>> 56).toUInt8, (value >>> 48).toUInt8] ++ ofUInt48 value

def toUInt16 (high low : UInt8) : UInt16 :=
  (high.toUInt16 <<< 8) ||| low.toUInt16

def toUInt32 (first second third fourth : UInt8) : UInt32 :=
  (first.toUInt32 <<< 24) ||| (second.toUInt32 <<< 16) ||| (third.toUInt32 <<< 8) |||
    fourth.toUInt32

def uint16At? (octets : Octets) (offset : Nat) : Option UInt16 := do
  let high ← octets[offset]?
  let low ← octets[offset + 1]?
  return toUInt16 high low

/-- The 32-bit number at `offset`, when all four octets are inside. -/
def uint32At? (octets : Octets) (offset : Nat) : Option UInt32 := do
  let first ← octets[offset]?
  let second ← octets[offset + 1]?
  let third ← octets[offset + 2]?
  let fourth ← octets[offset + 3]?
  return toUInt32 first second third fourth

/-- The `length` octets from `offset` on, when all of them are inside. -/
def slice? (octets : Octets) (offset length : Nat) : Option Octets :=
  if offset + length ≤ octets.size then some (octets.extract offset (offset + length)) else none

def text? (octets : Octets) : Option String :=
  String.fromUTF8? ⟨octets⟩

def ofText (text : String) : List UInt8 :=
  text.toUTF8.data.toList

end Octets

end ZonePropagation
