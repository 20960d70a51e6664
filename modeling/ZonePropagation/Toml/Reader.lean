import ZonePropagation.Toml.Draft
import ZonePropagation.Toml.Lexeme
/-!
Reading TOML 1.0 documents.  A document is a sequence of lines: empty, a table's header, the
header of the next table of a list, or a key with its value.  Brackets nest less than
`depthLimit` deep.
-/

namespace ZonePropagation.Toml

def depthLimit : Nat := 80

mutual

def value? (depth : Nat) : (fuel : Nat) → List Char → Option (Toml × List Char)
  | 0, _ => none
  | fuel + 1, text =>
      match text with
      | '"' :: _ => (string? text).map fun read => (.string read.1, read.2)
      | '\'' :: _ => (string? text).map fun read => (.string read.1, read.2)
      | 't' :: 'r' :: 'u' :: 'e' :: rest => some (.flag true, rest)
      | 'f' :: 'a' :: 'l' :: 's' :: 'e' :: rest => some (.flag false, rest)
      | '[' :: rest => if depth + 1 < depthLimit then items? (depth + 1) [] fuel rest else none
      | '\x7b' :: rest =>
          if depth + 1 < depthLimit then
            match skipSpace rest with
            | '\x7d' :: after => some (.table [], after)
            | _ => members? (depth + 1) [] fuel rest
          else none
      | _ => if startsDate text || startsTime text then moment? text else number? text
termination_by structural fuel => fuel

def items? (depth : Nat) (done : List Toml) : (fuel : Nat) → List Char → Option (Toml × List Char)
  | 0, _ => none
  | fuel + 1, text =>
      match skipLines? false text with
      | some (']' :: rest) => some (.array done.reverse, rest)
      | some start =>
          match value? depth fuel start with
          | some (item, after) =>
              match skipLines? false after with
              | some (',' :: rest) => items? depth (item :: done) fuel rest
              | some (']' :: rest) => some (.array (item :: done).reverse, rest)
              | _ => none
          | none => none
      | none => none
termination_by structural fuel => fuel

/-- Reads the keys and values of an inline table, of which there is at least one. -/
def members? (depth : Nat) (done : Drafts) : (fuel : Nat) → List Char → Option (Toml × List Char)
  | 0, _ => none
  | fuel + 1, text =>
      match pair? depth fuel text with
      | some (key, name, value, after) =>
          match done.assign name value key with
          | some drafts =>
              match skipSpace after with
              | ',' :: rest => members? depth drafts fuel rest
              | '\x7d' :: rest => some (.table (finishEntries drafts), rest)
              | _ => none
          | none => none
      | none => none
termination_by structural fuel => fuel

def pair? (depth : Nat) :
    (fuel : Nat) → List Char → Option (List String × String × Toml × List Char)
  | 0, _ => none
  | fuel + 1, text =>
      match key? [] (text.length + 1) text with
      | some (key, '=' :: afterKey) =>
          match value? depth fuel (skipSpace afterKey), key.getLast? with
          | some (value, after), some name => some (key.dropLast, name, value, after)
          | _, _ => none
      | _ => none
termination_by structural fuel => fuel

end

/-- A document so far: its tables and the path of the table whose lines are being read. -/
structure Document where
  drafts : Drafts := []
  path : List String := []

namespace Document

def header? (rest : List Char) : Option (List String × String × List Char) := do
  let (key, after) ← key? [] (rest.length + 1) rest
  let name ← key.getLast?
  return (key.dropLast, name, after)

def line? (document : Document) (text : List Char) : Option (Document × List Char) := do
  match text with
  | '[' :: '[' :: rest =>
      let (path, name, after) ← header? rest
      let closed ← after? ']' (← after? ']' after)
      let drafts ← document.drafts.within (Drafts.openElement name) path
      return (⟨drafts, path ++ [name]⟩, ← lineEnd? closed)
  | '[' :: rest =>
      let (path, name, after) ← header? rest
      let closed ← after? ']' after
      let drafts ← document.drafts.within (Drafts.openTable name) path
      return (⟨drafts, path ++ [name]⟩, ← lineEnd? closed)
  | _ =>
      let (key, name, value, after) ← pair? 0 (4 * text.length + 4) text
      let drafts ← document.drafts.within (Drafts.assign name value key) document.path
      return (⟨drafts, document.path⟩, ← lineEnd? after)

def lines? (document : Document) : (fuel : Nat) → List Char → Option Document
  | 0, _ => none
  | fuel + 1, text =>
      match skipLines? false text with
      | some [] => some document
      | some start =>
          match document.line? start with
          | some (next, rest) => lines? next fuel rest
          | none => none
      | none => none

end Document

def parse? (text : String) : Option Toml :=
  let characters := match text.toList with
    | '\uFEFF' :: rest => rest
    | rest => rest
  (Document.lines? {} (characters.length + 2) characters).map fun document =>
    .table (finishEntries document.drafts)

end ZonePropagation.Toml
