import ZonePropagation.Toml
import ZonePropagation.Octets.Hex
import ZonePropagation.Text.Numeral
import ZonePropagation.Time.Calendar
/-!
The words of TOML: blanks and comments, keys, strings, numbers and moments in time.  Each reader
takes the text from where the word may begin, and gives what it read and the text after it.
-/

namespace ZonePropagation.Toml

def skipSpace (rest : List Char) : List Char :=
  rest.dropWhile fun character => character == ' ' || character == '\t'

def isPlain (character : Char) : Bool :=
  character == '\t' || (0x20 ≤ character.toNat && character != Char.ofNat 0x7F)

/-- The text after the end of a line.  Nothing but a comment may stand before it. -/
def lineEnd? (rest : List Char) : Option (List Char) :=
  let after := match skipSpace rest with
    | '#' :: comment => comment.dropWhile isPlain
    | other => other
  match after with
  | [] => some []
  | '\n' :: next => some next
  | '\r' :: '\n' :: next => some next
  | _ => none

/-- The text after blanks, line ends and comments.  A comment ends with its line. -/
def skipLines? (inComment : Bool) : List Char → Option (List Char)
  | '\n' :: rest => skipLines? false rest
  | '\r' :: '\n' :: rest => skipLines? false rest
  | [] => some []
  | character :: rest =>
      if inComment then
        if isPlain character then skipLines? true rest else none
      else if character == ' ' || character == '\t' then skipLines? false rest
      else if character == '#' then skipLines? true rest
      else if character == '\r' then none
      else some (character :: rest)

/-! Strings -/

def unicode? (digits : Nat) (rest : List Char) : Option (Char × List Char) := do
  let values ← (rest.take digits).mapM Octets.hexValue?
  let code := values.foldl (fun code digit => 16 * code + digit.toNat) 0
  if values.length = digits ∧ (code < 0xD800 ∨ (0xDFFF < code ∧ code < 0x110000)) then
    return (Char.ofNat code, rest.drop digits)
  else none

def escape? : List Char → Option (Char × List Char)
  | 'b' :: rest => some (Char.ofNat 8, rest)
  | 't' :: rest => some ('\t', rest)
  | 'n' :: rest => some ('\n', rest)
  | 'f' :: rest => some (Char.ofNat 12, rest)
  | 'r' :: rest => some ('\r', rest)
  | '"' :: rest => some ('"', rest)
  | '\\' :: rest => some ('\\', rest)
  | 'u' :: rest => unicode? 4 rest
  | 'U' :: rest => unicode? 8 rest
  | _ => none

/-- A quoted string after its quote, with escapes; `read` holds its characters, latest first. -/
def basic? (read : List Char) : (fuel : Nat) → List Char → Option (String × List Char)
  | fuel + 1, character :: rest =>
      if character == '"' then some (String.ofList read.reverse, rest)
      else if character == '\\' then
        match escape? rest with
        | some (escaped, after) => basic? (escaped :: read) fuel after
        | none => none
      else if isPlain character then basic? (character :: read) fuel rest
      else none
  | _, _ => none

def literal? (rest : List Char) : Option (String × List Char) :=
  match rest.dropWhile fun character => isPlain character && character != '\'' with
  | '\'' :: after =>
      some (String.ofList
        (rest.takeWhile fun character => isPlain character && character != '\''), after)
  | _ => none

def foldedLine? (rest : List Char) : Option (List Char) :=
  let isBlank (character : Char) : Bool :=
    character == ' ' || character == '\t' || character == '\n' || character == '\r'
  match skipSpace rest with
  | '\n' :: after => some (after.dropWhile isBlank)
  | '\r' :: '\n' :: after => some (after.dropWhile isBlank)
  | _ => none

/-- A string over several lines, after its opening quotes.  Up to two quotes may stand right
before the closing three. -/
def multiline? (quote : Char) (escapes : Bool) (read : List Char) :
    (fuel : Nat) → List Char → Option (String × List Char)
  | fuel + 1, character :: rest =>
      if character == quote then
        let run := (rest.takeWhile (· == quote)).length + 1
        if run < 3 then multiline? quote escapes (quote :: read) fuel rest
        else
          let kept := min run 5 - 3
          some (String.ofList (List.replicate kept quote ++ read).reverse, rest.drop (kept + 2))
      else if escapes && character == '\\' then
        match foldedLine? rest, escape? rest with
        | some after, _ => multiline? quote escapes read fuel after
        | none, some (escaped, after) => multiline? quote escapes (escaped :: read) fuel after
        | none, none => none
      else
        match character, rest with
        | '\n', _ => multiline? quote escapes ('\n' :: read) fuel rest
        | '\r', '\n' :: after => multiline? quote escapes ('\n' :: read) fuel after
        | _, _ =>
            if isPlain character then multiline? quote escapes (character :: read) fuel rest
            else none
  | _, _ => none

/-- The text of a string over several lines begins after a line end right behind its quotes. -/
def dropLineEnd : List Char → List Char
  | '\n' :: rest => rest
  | '\r' :: '\n' :: rest => rest
  | rest => rest

def string? : List Char → Option (String × List Char)
  | '"' :: '"' :: '"' :: rest => multiline? '"' true [] (rest.length + 1) (dropLineEnd rest)
  | '"' :: rest => basic? [] (rest.length + 1) rest
  | '\'' :: '\'' :: '\'' :: rest => multiline? '\'' false [] (rest.length + 1) (dropLineEnd rest)
  | '\'' :: rest => literal? rest
  | _ => none

/-! Keys -/

def isBare (character : Char) : Bool :=
  character.isAlphanum || character == '_' || character == '-'

def keyPart? : List Char → Option (String × List Char)
  | '"' :: rest => basic? [] (rest.length + 1) rest
  | '\'' :: rest => literal? rest
  | rest =>
      match rest.takeWhile isBare with
      | [] => none
      | characters => some (String.ofList characters, rest.dropWhile isBare)

def key? (parts : List String) : (fuel : Nat) → List Char → Option (List String × List Char)
  | 0, _ => none
  | fuel + 1, rest =>
      match keyPart? (skipSpace rest) with
      | none => none
      | some (part, after) =>
          match skipSpace after with
          | '.' :: next => key? (part :: parts) fuel next
          | next => some ((part :: parts).reverse, next)

/-! Numbers -/

def moreDigits (isDigit : Char → Bool) : List Char → List Char × List Char
  | '_' :: digit :: rest =>
      if isDigit digit then
        let (digits, after) := moreDigits isDigit rest
        (digit :: digits, after)
      else ([], '_' :: digit :: rest)
  | digit :: rest =>
      if isDigit digit then
        let (digits, after) := moreDigits isDigit rest
        (digit :: digits, after)
      else ([], digit :: rest)
  | [] => ([], [])

def digits? (isDigit : Char → Bool) : List Char → Option (List Char × List Char)
  | digit :: rest =>
      if isDigit digit then
        let (digits, after) := moreDigits isDigit rest
        some (digit :: digits, after)
      else none
  | [] => none

def digitsValue (base : Nat) (digits : List Char) : Nat :=
  digits.foldl (fun value digit =>
    base * value + ((Octets.hexValue? digit).map UInt8.toNat).getD 0) 0

def based? (base : Nat) (rest : List Char) : Option (Toml × List Char) := do
  let isDigit (character : Char) : Bool :=
    match Octets.hexValue? character with
    | some value => value.toNat < base
    | none => false
  let (digits, after) ← digits? isDigit rest
  let value := digitsValue base digits
  if value < Nat.pow 2 63 then return (.integer value, after) else none

def skipExponent? : List Char → Option (List Char)
  | mark :: rest =>
      if mark == 'e' || mark == 'E' then
        let unsigned := match rest with
          | '+' :: digits => digits
          | '-' :: digits => digits
          | digits => digits
        (digits? Char.isDigit unsigned).map Prod.snd
      else some (mark :: rest)
  | [] => some []

def decimal? (negative : Bool) (rest : List Char) : Option (Toml × List Char) := do
  let (digits, after) ← match rest with
    | '0' :: after => some (['0'], after)
    | _ => digits? Char.isDigit rest
  match after with
  | '.' :: fraction =>
      let (_, afterFraction) ← digits? Char.isDigit fraction
      return (.real, ← skipExponent? afterFraction)
  | _ =>
      let afterExponent ← skipExponent? after
      if afterExponent.length < after.length then return (.real, afterExponent)
      let value : Int := digitsValue 10 digits
      if negative then
        if value ≤ Nat.pow 2 63 then return (.integer (-value), after) else none
      else if value < Nat.pow 2 63 then return (.integer value, after) else none

/-- A number after its sign, with the words for infinity and for no number. -/
def signed? (negative : Bool) : List Char → Option (Toml × List Char)
  | 'i' :: 'n' :: 'f' :: rest => some (.real, rest)
  | 'n' :: 'a' :: 'n' :: rest => some (.real, rest)
  | rest => decimal? negative rest

def number? : List Char → Option (Toml × List Char)
  | '+' :: rest => signed? false rest
  | '-' :: rest => signed? true rest
  | '0' :: 'x' :: rest => based? 16 rest
  | '0' :: 'o' :: rest => based? 8 rest
  | '0' :: 'b' :: rest => based? 2 rest
  | rest => signed? false rest

/-! Moments -/

def fixed? (width low high : Nat) (rest : List Char) : Option (Nat × List Char) := do
  let value ← Text.digits? (rest.take width)
  if (rest.take width).length = width ∧ low ≤ value ∧ value ≤ high then
    return (value, rest.drop width)
  else none

def after? (expected : Char) : List Char → Option (List Char)
  | character :: rest => if character == expected then some rest else none
  | [] => none

def afterHour? (rest : List Char) : Option (List Char) := do
  let (_, afterMinute) ← fixed? 2 0 59 rest
  let (_, afterSecond) ← fixed? 2 0 60 (← after? ':' afterMinute)
  match afterSecond with
  | '.' :: digit :: fraction =>
      if digit.isDigit then return fraction.dropWhile Char.isDigit else return afterSecond
  | _ => return afterSecond

def hour? (rest : List Char) : Option (List Char) := do
  let (_, afterHour) ← fixed? 2 0 23 rest
  after? ':' afterHour

def skipZone? : List Char → Option (List Char)
  | mark :: rest =>
      if mark == 'Z' || mark == 'z' then some rest
      else if mark == '+' || mark == '-' then do
        let (_, after) ← fixed? 2 0 59 (← hour? rest)
        return after
      else some (mark :: rest)
  | [] => some []

def afterDate? (rest : List Char) : Option (List Char) := do
  let (year, afterYear) ← fixed? 4 0 9999 rest
  let (month, afterMonth) ← fixed? 2 1 12 (← after? '-' afterYear)
  let (_, after) ← fixed? 2 1 (Calendar.monthLength year month) (← after? '-' afterMonth)
  return after

def startsDate (rest : List Char) : Bool :=
  (fixed? 4 0 9999 rest).any fun read => read.2.head? == some '-'

def startsTime (rest : List Char) : Bool :=
  (fixed? 2 0 99 rest).any fun read => read.2.head? == some ':'

/-- Reads a time of day, a date, or both with or without the distance from universal time. -/
def moment? (rest : List Char) : Option (Toml × List Char) := do
  if startsTime rest then return (.moment, ← afterHour? (← hour? rest))
  let afterDate ← afterDate? rest
  match afterDate with
  | mark :: time =>
      if (mark == 'T' || mark == 't' || mark == ' ') && startsTime time then
        return (.moment, ← skipZone? (← afterHour? (← hour? time)))
      return (.moment, afterDate)
  | [] => return (.moment, [])

end ZonePropagation.Toml
