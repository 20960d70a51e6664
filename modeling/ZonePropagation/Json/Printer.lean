import ZonePropagation.Json
/-!
Printing JSON without blanks.  Quotes, backslashes and control characters are escaped.
-/

namespace ZonePropagation.Json

/-- The four hexadecimal digits of a code below 65536. -/
def fourDigits (code : Nat) : String :=
  let digits := Nat.toDigits 16 code
  String.ofList (List.replicate (4 - digits.length) '0' ++ digits)

def escaped (character : Char) : String :=
  if character == '"' then "\\\""
  else if character == '\\' then "\\\\"
  else if character == '\n' then "\\n"
  else if character == '\r' then "\\r"
  else if character == '\t' then "\\t"
  else if character.toNat < 32 then "\\u" ++ fourDigits character.toNat
  else character.toString

def quoted (text : String) : String :=
  text.foldl (fun written character => written ++ escaped character) "\"" ++ "\""

mutual

/-- Prints a value after what is already written. -/
def printAfter (written : String) : Json → String
  | .null => written ++ "null"
  | .bool true => written ++ "true"
  | .bool false => written ++ "false"
  | .int value => written ++ toString value
  | .real literal => written ++ literal
  | .str value => written ++ quoted value
  | .arr items => printItems (written ++ "[") true items ++ "]"
  | .obj members => printMembers (written ++ "\x7b") true members ++ "\x7d"

def printItems (written : String) (first : Bool) : List Json → String
  | [] => written
  | item :: rest =>
      printItems (printAfter (if first then written else written ++ ",") item) false rest

def printMembers (written : String) (first : Bool) : List (String × Json) → String
  | [] => written
  | (name, value) :: rest =>
      let before := (if first then written else written ++ ",") ++ quoted name ++ ":"
      printMembers (printAfter before value) false rest

end

def print (json : Json) : String :=
  printAfter "" json

end ZonePropagation.Json
