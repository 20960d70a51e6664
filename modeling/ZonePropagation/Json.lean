/-!
JSON values.  An object keeps its members in the order in which they were written; a number is an
integer, or the text of a number with a fraction, an exponent or a negative zero.
-/

namespace ZonePropagation

inductive Json where
  | null
  | bool (value : Bool)
  | int (value : Int)
  | real (literal : String)
  | str (value : String)
  | arr (items : List Json)
  | obj (members : List (String × Json))
deriving Repr, Inhabited

namespace Json

def get (json : Json) (name : String) : Json :=
  match json with
  | .obj members =>
      match members.reverse.find? fun member => member.1 == name with
      | some member => member.2
      | none => .null
  | _ => .null

def isNull : Json → Bool
  | .null => true
  | _ => false

def string? : Json → Option String
  | .str value => some value
  | _ => none

def int? : Json → Option Int
  | .int value => some value
  | _ => none

def nat? : Json → Option Nat
  | .int (.ofNat value) => some value
  | _ => none

def bool? : Json → Option Bool
  | .bool value => some value
  | _ => none

def items : Json → List Json
  | .arr items => items
  | _ => []

/-- The members of an object; any other value has none. -/
def members : Json → List (String × Json)
  | .obj members => members
  | _ => []

def textOr (json : Json) (name fallback : String) : String :=
  ((json.get name).string?).getD fallback

def textAt (json : Json) (name : String) : String := json.textOr name ""

/-- The natural number of a member, or the given one. -/
def natOr (json : Json) (name : String) (fallback : Nat) : Nat :=
  ((json.get name).nat?).getD fallback

/-- The natural number of a member, zero if it has none. -/
def natAt (json : Json) (name : String) : Nat := json.natOr name 0

def flagOr (json : Json) (name : String) (fallback : Bool) : Bool :=
  ((json.get name).bool?).getD fallback

/-- The truth value of a member, false if it has none. -/
def flagAt (json : Json) (name : String) : Bool := json.flagOr name false

def textsAt (json : Json) (name : String) : List String :=
  (json.get name).items.filterMap string?

def present? (json : Json) : Option Json :=
  if json.isNull then none else some json

def nat (value : Nat) : Json := .int value

def ofOption {α : Type} (encode : α → Json) : Option α → Json
  | some value => encode value
  | none => .null

def strings (texts : List String) : Json := .arr (texts.map .str)

end Json

end ZonePropagation
