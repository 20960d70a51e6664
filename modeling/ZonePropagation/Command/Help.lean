import ZonePropagation.Command
/-!
The help texts of the command line.
-/

namespace ZonePropagation.Command

def program : String := "zonepool"

def versionLine : String := program ++ " 0.1.0"

def purpose : String := "Zone propagation manager for pools of authoritative nameservers"

def Topic.purpose : Topic → String
  | .run => "Run the manager: recovery/sync timers and the HTTP endpoint"
  | .propagate => "Propagate one zone's pending action and wait for the result"
  | .notify => "Send a NOTIFY for a zone to one nameserver"
  | .serial => "Query the SOA serial a nameserver serves for a zone"
  | .targetSerials => "Ask every backend target of a pool for its serial"
  | .checkDrift => "Compare a nameserver's AXFR with the records in the central store"

def columns (rows : List (String × String)) : List String :=
  let width := (rows.map fun row => row.1.length).foldl max 0
  rows.map fun row =>
    "  " ++ row.1 ++ "".pushn ' ' (width - row.1.length + 2) ++ row.2

def titled (title : String) (lines : List String) : List String :=
  if lines.isEmpty then [] else ["", title ++ ":"] ++ lines

/-- The options that concern the program itself. -/
def commonOptions : List (String × String) := [
  ("-c, --config <CONFIG>", "Configuration file (TOML)"),
  ("    --log-level <LOG_LEVEL>", "Log filter, overrides RUST_LOG"),
  ("-h, --help", "Print help")]

def actionOption : String × String :=
  ("    --action <ACTION>", "Override the action (create, update, delete)")

def helpLines : List String :=
  [purpose, "", s!"Usage: {program} [OPTIONS] <COMMAND>"] ++
    titled "Commands" (columns (Topic.all.map (fun topic => (topic.word, topic.purpose)) ++
      [("help", "Print this message or the help of the given subcommand(s)")])) ++
    titled "Options" (columns (commonOptions ++ [("-V, --version", "Print version")]))

def Topic.helpLines (topic : Topic) : List String :=
  let places := topic.places.map fun place => ("<" ++ place.1 ++ ">", place.2)
  let options := if topic = .propagate then actionOption :: commonOptions else commonOptions
  let usage := " ".intercalate
    (["Usage:", program, topic.word, "[OPTIONS]"] ++ places.map Prod.fst)
  [topic.purpose, "", usage] ++ titled "Arguments" (columns places) ++
    titled "Options" (columns options)

end ZonePropagation.Command
