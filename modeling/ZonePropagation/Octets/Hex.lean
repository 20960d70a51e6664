import ZonePropagation.Octets
/-!
Hexadecimal spelling of octet strings: two lowercase digits an octet; either case is read.
-/

namespace ZonePropagation.Octets

def hexDigit (value : UInt8) : Char :=
  if value < 10 then Char.ofNat (48 + value.toNat) else Char.ofNat (87 + value.toNat)

def hexPair (octet : UInt8) : List Char :=
  [hexDigit (octet >>> 4), hexDigit (octet &&& 15)]

def toHex (octets : List UInt8) : String :=
  String.ofList (octets.flatMap hexPair)

def hexValue? (digit : Char) : Option UInt8 :=
  if '0' ≤ digit ∧ digit ≤ '9' then some (digit.toNat - 48).toUInt8
  else if 'a' ≤ digit ∧ digit ≤ 'f' then some (digit.toNat - 87).toUInt8
  else if 'A' ≤ digit ∧ digit ≤ 'F' then some (digit.toNat - 55).toUInt8
  else none

private def pairs (octets : Octets) : List Char → Option Octets
  | [] => some octets
  | [_] => none
  | high :: low :: rest => do
      let upper ← hexValue? high
      let lower ← hexValue? low
      pairs (octets.push ((upper <<< 4) ||| lower)) rest

/-- The octets a hexadecimal text spells, when its digits come in pairs. -/
def ofHex? (text : String) : Option Octets :=
  pairs #[] text.toList

end ZonePropagation.Octets
