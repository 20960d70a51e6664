import ZonePropagation.Text.Blank
import ZonePropagation.Text.Numeral
import ZonePropagation.Time.Calendar
/-!
Points in time to the nanosecond, and their text.

The text is that of RFC 3339 in universal time, with three, six or nine decimals where they are
needed.  Reading also accepts blanks between the parts, a blank for the `T`, short numbers, signed
years and offsets.  A leap second counts as the second before it with more than a second of
nanoseconds.
-/

namespace ZonePropagation

/-- A point in time: seconds since the epoch and nanoseconds, a leap second's above a milliard. -/
structure Timestamp where
  second : Int
  nano : Nat
deriving DecidableEq, Repr, Inhabited

namespace Timestamp

def perSecond : Nat := 1000000000

def ofMillis (millis : Int) : Timestamp where
  second := millis / 1000
  nano := (millis % 1000).toNat * 1000000

def toMillis (time : Timestamp) : Int :=
  time.second * 1000 + (time.nano / 1000000 : Nat)

def isBefore (left right : Timestamp) : Bool :=
  left.second < right.second || (left.second == right.second && left.nano < right.nano)

instance : LT Timestamp := ⟨fun left right => left.isBefore right = true⟩

instance : LE Timestamp := ⟨fun left right => ¬right < left⟩

instance (left right : Timestamp) : Decidable (left < right) :=
  inferInstanceAs (Decidable (left.isBefore right = true))

instance (left right : Timestamp) : Decidable (left ≤ right) :=
  inferInstanceAs (Decidable (¬right < left))

def firstYear : Int := -262143

def lastYear : Int := 262142

def inRange (second : Int) : Bool :=
  (Calendar.Date.mk firstYear 1 1).toDays * 86400 ≤ second &&
    second < (Calendar.Date.mk (lastYear + 1) 1 1).toDays * 86400

def first : Timestamp where
  second := (Calendar.Date.mk firstYear 1 1).toDays * 86400
  nano := 0

/-- The point that many seconds earlier.  A leap second is left through the second after it. -/
def earlier (time : Timestamp) (seconds : Nat) : Timestamp :=
  if perSecond ≤ time.nano ∧ 0 < seconds then
    { second := time.second + 1 - seconds, nano := time.nano - perSecond }
  else { second := time.second - seconds, nano := time.nano }

/-- The point that many seconds before `now`, but not before the first point in time. -/
def ago (now : Timestamp) (seconds : Nat) : Timestamp :=
  if now.earlier seconds < first then first else now.earlier seconds

/-! ### Printing -/

def padded (width value : Nat) : String :=
  let digits := Nat.toDigits 10 value
  String.ofList (List.replicate (width - digits.length) '0' ++ digits)

/-- A year: four digits, or a sign and at least four digits outside the four-digit years. -/
def yearText (year : Int) : String :=
  if 0 ≤ year ∧ year ≤ 9999 then padded 4 year.toNat
  else (if year < 0 then "-" else "+") ++ padded 4 year.natAbs

def decimals (nano : Nat) : String :=
  if nano = 0 then ""
  else if nano % 1000000 = 0 then "." ++ padded 3 (nano / 1000000)
  else if nano % 1000 = 0 then "." ++ padded 6 (nano / 1000)
  else "." ++ padded 9 nano

def text (time : Timestamp) : String :=
  let date := Calendar.Date.ofDays (time.second / 86400)
  let second := (time.second % 86400).toNat
  let shown := if time.nano < perSecond then second % 60 else second % 60 + 1
  yearText date.year ++ "-" ++ padded 2 date.month ++ "-" ++ padded 2 date.day ++ "T" ++
    padded 2 (second / 3600) ++ ":" ++ padded 2 (second / 60 % 60) ++ ":" ++ padded 2 shown ++
    decimals (time.nano % perSecond) ++ "Z"

/-! ### Reading -/

def skipBlanks (rest : List Char) : List Char := rest.dropWhile Text.isBlank

/-- The number of at most `width` digits at the front, of which there is at least one. -/
def number? (width : Nat) (rest : List Char) : Option (Nat × List Char) :=
  let digits := (rest.take width).takeWhile Char.isDigit
  (Text.digits? digits).map fun value => (value, rest.drop digits.length)

def field? (width : Nat) (rest : List Char) : Option (Nat × List Char) :=
  number? width (skipBlanks rest)

def year? (rest : List Char) : Option (Int × List Char) :=
  match skipBlanks rest with
  | '-' :: after => (number? after.length after).map fun read => (-(read.1 : Int), read.2)
  | '+' :: after => (number? after.length after).map fun read => ((read.1 : Int), read.2)
  | after => (number? 4 after).map fun read => ((read.1 : Int), read.2)

def mark? (mark : Char) (rest : List Char) : Option (List Char) :=
  match skipBlanks rest with
  | character :: after => if character == mark then some after else none
  | [] => none

/-- The nanoseconds after a point, when there is a point; digits after the ninth are dropped. -/
def nanoseconds? : List Char → Option (Nat × List Char)
  | '.' :: rest => do
      let digits := rest.takeWhile Char.isDigit
      let kept := digits.take 9
      let value ← Text.digits? kept
      return (value * Nat.pow 10 (9 - kept.length), rest.drop digits.length)
  | rest => some (0, rest)

def twoDigits? : List Char → Option (Nat × List Char)
  | tens :: ones :: rest => do
      let high ← Text.digitValue? tens
      let low ← Text.digitValue? ones
      return (10 * high + low, rest)
  | _ => none

def signedOffset? (rest : List Char) : Option (Nat × List Char) := do
  let (hours, afterHours) ← twoDigits? rest
  let minutesOn := afterHours.dropWhile fun character => character == ':' || Text.isBlank character
  let (minutes, after) ← twoDigits? minutesOn
  if minutes < 60 then return (hours * 3600 + minutes * 60, after) else none

def offset? (rest : List Char) : Option (Int × List Char) :=
  match rest with
  | 'Z' :: after | 'z' :: after => some (0, after)
  | '+' :: after => (signedOffset? after).map fun read => ((read.1 : Int), read.2)
  | '-' :: after => (signedOffset? after).map fun read => (-(read.1 : Int), read.2)
  | first :: second :: third :: after =>
      if [first, second, third].map Char.toUpper == ['U', 'T', 'C'] then some (0, after)
      else if first == Char.ofNat 0x2212 then
        (signedOffset? (second :: third :: after)).map fun read => (-(read.1 : Int), read.2)
      else none
  | _ => none

def date? (rest : List Char) : Option (Calendar.Date × List Char) := do
  let (year, afterYear) ← year? rest
  let monthOn ← mark? '-' afterYear
  let (month, afterMonth) ← field? 2 monthOn
  let dayOn ← mark? '-' afterMonth
  let (day, after) ← field? 2 dayOn
  let date : Calendar.Date := { year, month, day }
  if date.isValid && firstYear ≤ year && year ≤ lastYear then return (date, after) else none

/-- The second of the day and the nanoseconds at the front; second 60 is a leap second. -/
def clock? (rest : List Char) : Option ((Nat × Nat) × List Char) := do
  let (hour, afterHour) ← field? 2 rest
  let minuteOn ← mark? ':' afterHour
  let (minute, afterMinute) ← field? 2 minuteOn
  let secondOn ← mark? ':' afterMinute
  let (second, afterSecond) ← field? 2 secondOn
  let (nano, after) ← nanoseconds? afterSecond
  if hour < 24 ∧ minute < 60 ∧ second ≤ 60 then
    let whole := hour * 3600 + minute * 60
    if second = 60 then return ((whole + 59, nano + perSecond), after)
    else return ((whole + second, nano), after)
  else none

def ofText? (text : String) : Option Timestamp := do
  let (date, afterDate) ← date? text.toList
  let clockOn ← match afterDate with
    | 'T' :: rest | 't' :: rest | ' ' :: rest => some rest
    | _ => none
  let ((second, nano), afterClock) ← clock? clockOn
  let (offset, after) ← offset? (skipBlanks afterClock)
  let total := date.toDays * 86400 + second - offset
  if (skipBlanks after).isEmpty && offset.natAbs < 86400 && inRange total then
    return { second := total, nano }
  else none

end Timestamp

end ZonePropagation
