/-!
TOML values.  The order of a table's entries means nothing; no two have the same name.  A real
number or a moment in time keeps no value, since no setting is one.
-/

namespace ZonePropagation

inductive Toml where
  | string (value : String)
  | integer (value : Int)
  | real
  | flag (value : Bool)
  | moment
  | array (items : List Toml)
  | table (entries : List (String × Toml))
deriving Repr, Inhabited

namespace Toml

def text? : Toml → Option String
  | .string value => some value
  | _ => none

def flag? : Toml → Option Bool
  | .flag value => some value
  | _ => none

def natural? (bound : Nat) : Toml → Option Nat
  | .integer (.ofNat value) => if value ≤ bound then some value else none
  | _ => none

def list? {α : Type} (read : Toml → Option α) : Toml → Option (List α)
  | .array items => items.mapM read
  | _ => none

/-- The entries of a table, each value read by the same reader. -/
def entries? {α : Type} (read : Toml → Option α) : Toml → Option (List (String × α))
  | .table entries => entries.mapM fun entry => (read entry.2).map fun value => (entry.1, value)
  | _ => none

/-- A record: a table, or an array that gives the record's fields in their order. -/
def record? (fields : List String) : Toml → Option (List (String × Toml))
  | .table entries => some entries
  | .array items => some (fields.zip items)
  | _ => none

def lookup? (entries : List (String × Toml)) (name : String) : Option Toml :=
  (entries.find? fun entry => entry.1 == name).map Prod.snd

def required {α : Type} (entries : List (String × Toml)) (name : String)
    (read : Toml → Option α) : Option α :=
  (lookup? entries name).bind read

def fieldOr {α : Type} (entries : List (String × Toml)) (name : String) (read : Toml → Option α)
    (absent : α) : Option α :=
  match lookup? entries name with
  | some value => read value
  | none => some absent

def field? {α : Type} (entries : List (String × Toml)) (name : String) (read : Toml → Option α) :
    Option (Option α) :=
  fieldOr entries name (fun value => (read value).map some) none

end Toml

end ZonePropagation
