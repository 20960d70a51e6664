import ZonePropagation.Toml
/-!
Tables while a document is being read.

A table remembers how it came about, because that decides how it may still grow: a header may
take over a table that an earlier header only implied, and dotted keys may add to a table that
dotted keys began.  A list of tables is kept with the latest first.
-/

namespace ZonePropagation.Toml

inductive Origin where
  | header
  | implied
  | dotted
deriving DecidableEq, Repr

inductive Draft where
  | leaf (value : Toml)
  | table (origin : Origin) (entries : List (String × Draft))
  | tables (latestFirst : List (List (String × Draft)))

abbrev Drafts := List (String × Draft)

namespace Drafts

def find? (drafts : Drafts) (name : String) : Option Draft :=
  (List.find? (fun entry => entry.1 == name) drafts).map Prod.snd

def put (drafts : Drafts) (name : String) (draft : Draft) : Drafts :=
  (name, draft) :: drafts.filter fun entry => entry.1 != name

/-- Changes the table that a header's path leads to, with the tables on the way implied. -/
def within (change : Drafts → Option Drafts) : List String → Drafts → Option Drafts
  | [], drafts => change drafts
  | name :: path, drafts =>
      match drafts.find? name with
      | none => (within change path []).map fun inner => drafts.put name (.table .implied inner)
      | some (.table origin entries) =>
          (within change path entries).map fun inner => drafts.put name (.table origin inner)
      | some (.tables (latest :: earlier)) =>
          (within change path latest).map fun inner => drafts.put name (.tables (inner :: earlier))
      | some _ => none

def add (name : String) (value : Toml) (drafts : Drafts) : Option Drafts :=
  match drafts.find? name with
  | none => some (drafts.put name (.leaf value))
  | some _ => none

/-- Gives a dotted key a value.  The table that holds it has to be one that dotted keys began. -/
def assign (name : String) (value : Toml) : List String → Drafts → Option Drafts
  | [], drafts => drafts.add name value
  | key :: path, drafts =>
      match drafts.find? key with
      | none => (assign name value path []).map fun inner => drafts.put key (.table .dotted inner)
      | some (.table origin entries) =>
          if origin = .dotted ∨ (origin = .implied ∧ path ≠ []) then
            (assign name value path entries).map fun inner => drafts.put key (.table origin inner)
          else none
      | some (.tables (latest :: earlier)) =>
          if path ≠ [] then
            (assign name value path latest).map fun inner =>
              drafts.put key (.tables (inner :: earlier))
          else none
      | some _ => none

def openTable (name : String) (drafts : Drafts) : Option Drafts :=
  match drafts.find? name with
  | none => some (drafts.put name (.table .header []))
  | some (.table .implied entries) => some (drafts.put name (.table .header entries))
  | some _ => none

def openElement (name : String) (drafts : Drafts) : Option Drafts :=
  match drafts.find? name with
  | none => some (drafts.put name (.tables [[]]))
  | some (.tables latestFirst) => some (drafts.put name (.tables ([] :: latestFirst)))
  | some _ => none

end Drafts

mutual

def Draft.finish : Draft → Toml
  | .leaf value => value
  | .table _ entries => .table (finishEntries entries)
  | .tables latestFirst => .array (finishTables [] latestFirst)

def finishEntries : List (String × Draft) → List (String × Toml)
  | [] => []
  | (name, draft) :: rest => (name, draft.finish) :: finishEntries rest

/-- The elements of a finished list of tables, earliest first, before those already finished. -/
def finishTables (finished : List Toml) : List (List (String × Draft)) → List Toml
  | [] => finished
  | latest :: earlier => finishTables (.table (finishEntries latest) :: finished) earlier

end

end ZonePropagation.Toml
