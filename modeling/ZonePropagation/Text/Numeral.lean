/-!
Decimal numerals of bounded natural numbers: an optional plus sign, then at least one ASCII
digit, leading zeros allowed, and a value within the bound.
-/

namespace ZonePropagation.Text

def digitValue? (character : Char) : Option Nat :=
  if character.isDigit then some (character.toNat - 48) else none

def numeralValue (value : Nat) : List Char → Option Nat
  | [] => some value
  | character :: rest =>
      match digitValue? character with
      | some digit => numeralValue (10 * value + digit) rest
      | none => none

def digits? : List Char → Option Nat
  | [] => none
  | characters => numeralValue 0 characters

/-- The number up to `bound` that a numeral with an optional plus sign spells. -/
def numeral? (bound : Nat) (text : String) : Option Nat :=
  let digits := match text.toList with
    | '+' :: rest => digits? rest
    | characters => digits? characters
  digits.filter (· ≤ bound)

def uint16? (text : String) : Option UInt16 :=
  (numeral? 65535 text).map Nat.toUInt16

end ZonePropagation.Text
