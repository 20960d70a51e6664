import ZonePropagation.Json
import ZonePropagation.Octets.Hex
/-!
Reading JSON.  The grammar is that of RFC 8259; nothing but blanks may follow the value.  Half of
a surrogate pair on its own reads as the replacement character.
-/

namespace ZonePropagation.Json

def skipBlanks (rest : List Char) : List Char :=
  rest.dropWhile fun character =>
    character == ' ' || character == '\n' || character == '\r' || character == '\t'

def fourHex? : List Char → Option (Nat × List Char)
  | first :: second :: third :: fourth :: rest => do
      let digits ← [first, second, third, fourth].mapM Octets.hexValue?
      return (digits.foldl (fun code digit => 16 * code + digit.toNat) 0, rest)
  | _ => none

/-- The character of a code, with the replacement character for half of a surrogate pair. -/
def characterOf (code : Nat) : Char :=
  if 0xD800 ≤ code ∧ code < 0xE000 then Char.ofNat 0xFFFD else Char.ofNat code

def unicodeEscape? (rest : List Char) : Option (Char × List Char) := do
  let (high, after) ← fourHex? rest
  let single := (characterOf high, after)
  if 0xD800 ≤ high ∧ high < 0xDC00 then
    match after with
    | '\\' :: 'u' :: more => do
        let (low, last) ← fourHex? more
        if 0xDC00 ≤ low ∧ low < 0xE000 then
          return (Char.ofNat (0x10000 + (high - 0xD800) * 1024 + (low - 0xDC00)), last)
        else return single
    | _ => return single
  else return single

def escape? : List Char → Option (Char × List Char)
  | '"' :: rest => some ('"', rest)
  | '\\' :: rest => some ('\\', rest)
  | '/' :: rest => some ('/', rest)
  | 'b' :: rest => some (Char.ofNat 8, rest)
  | 'f' :: rest => some (Char.ofNat 12, rest)
  | 'n' :: rest => some ('\n', rest)
  | 'r' :: rest => some ('\r', rest)
  | 't' :: rest => some ('\t', rest)
  | 'u' :: rest => unicodeEscape? rest
  | _ => none

/-- Reads a string after its opening quote; `read` holds its characters so far, latest first. -/
def stringRest? (read : List Char) : (fuel : Nat) → List Char → Option (String × List Char)
  | 0, _ => none
  | _ + 1, [] => none
  | fuel + 1, character :: rest =>
      if character == '"' then some (String.ofList read.reverse, rest)
      else if character == '\\' then
        match escape? rest with
        | some (escaped, after) => stringRest? (escaped :: read) fuel after
        | none => none
      else if character.toNat < 32 then none
      else stringRest? (character :: read) fuel rest

def spanDigits (rest : List Char) : List Char × List Char :=
  (rest.takeWhile Char.isDigit, rest.dropWhile Char.isDigit)

def fraction? : List Char → Option (List Char × List Char)
  | '.' :: rest =>
      match spanDigits rest with
      | ([], _) => none
      | (digits, after) => some ('.' :: digits, after)
  | rest => some ([], rest)

def exponent? : List Char → Option (List Char × List Char)
  | mark :: rest =>
      if mark == 'e' || mark == 'E' then
        let (sign, digitsOn) := match rest with
          | '+' :: more => (['+'], more)
          | '-' :: more => (['-'], more)
          | more => ([], more)
        match spanDigits digitsOn with
        | ([], _) => none
        | (digits, after) => some (mark :: sign ++ digits, after)
      else some ([], mark :: rest)
  | [] => some ([], [])

def digitsValue (digits : List Char) : Nat :=
  digits.foldl (fun value digit => 10 * value + (digit.toNat - 48)) 0

/-- The integer of a sign and digits, within 64 bits; zero has no sign. -/
def integer? (negative : Bool) (digits : List Char) : Option Int :=
  let value := digitsValue digits
  if negative then
    if value = 0 ∨ value > Nat.pow 2 63 then none else some (-value)
  else if value < Nat.pow 2 64 then some value else none

def number? (text : List Char) : Option (Json × List Char) := do
  let (negative, unsigned) := match text with
    | '-' :: rest => (true, rest)
    | rest => (false, rest)
  let (whole, afterWhole) ← match unsigned with
    | '0' :: rest => some (['0'], rest)
    | rest =>
        match spanDigits rest with
        | ([], _) => none
        | split => some split
  let (fraction, afterFraction) ← fraction? afterWhole
  let (exponent, after) ← exponent? afterFraction
  let sign := if negative then ['-'] else []
  let literal := Json.real (String.ofList (sign ++ whole ++ fraction ++ exponent))
  if fraction.isEmpty && exponent.isEmpty then
    match integer? negative whole with
    | some value => return (.int value, after)
    | none => return (literal, after)
  else return (literal, after)

def word? : List Char → List Char → Option (List Char)
  | [], rest => some rest
  | expected :: word, character :: rest => if expected == character then word? word rest else none
  | _ :: _, [] => none

mutual

def value? : (fuel : Nat) → List Char → Option (Json × List Char)
  | 0, _ => none
  | fuel + 1, text =>
      match skipBlanks text with
      | 'n' :: rest => (word? ['u', 'l', 'l'] rest).map fun after => (.null, after)
      | 't' :: rest => (word? ['r', 'u', 'e'] rest).map fun after => (.bool true, after)
      | 'f' :: rest => (word? ['a', 'l', 's', 'e'] rest).map fun after => (.bool false, after)
      | '"' :: rest => (stringRest? [] (rest.length + 1) rest).map fun read => (.str read.1, read.2)
      | '[' :: rest =>
          match skipBlanks rest with
          | ']' :: after => some (.arr [], after)
          | _ => items? [] fuel rest
      | '\x7b' :: rest =>
          match skipBlanks rest with
          | '\x7d' :: after => some (.obj [], after)
          | _ => members? [] fuel rest
      | rest => number? rest

def items? (done : List Json) : (fuel : Nat) → List Char → Option (Json × List Char)
  | 0, _ => none
  | fuel + 1, text =>
      match value? fuel text with
      | none => none
      | some (item, after) =>
          match skipBlanks after with
          | ',' :: rest => items? (item :: done) fuel rest
          | ']' :: rest => some (.arr (item :: done).reverse, rest)
          | _ => none

/-- Reads the members of an object, of which there is at least one. -/
def members? (done : List (String × Json)) : (fuel : Nat) → List Char → Option (Json × List Char)
  | 0, _ => none
  | fuel + 1, text =>
      match skipBlanks text with
      | '"' :: nameOn =>
          match stringRest? [] (nameOn.length + 1) nameOn with
          | none => none
          | some (name, afterName) =>
              match skipBlanks afterName with
              | ':' :: valueOn =>
                  match value? fuel valueOn with
                  | none => none
                  | some (value, after) =>
                      match skipBlanks after with
                      | ',' :: rest => members? ((name, value) :: done) fuel rest
                      | '\x7d' :: rest => some (.obj ((name, value) :: done).reverse, rest)
                      | _ => none
              | _ => none
      | _ => none

end

def parse? (text : String) : Option Json :=
  let characters := text.toList
  match value? (2 * characters.length + 2) characters with
  | some (value, rest) => if (skipBlanks rest).isEmpty then some value else none
  | none => none

end ZonePropagation.Json
