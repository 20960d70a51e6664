import ZonePropagation.Command.Arguments
import ZonePropagation.Command.Help
import ZonePropagation.Probe.Script
import ZonePropagation.Session
/-!
Sessions in a small world: one settings file, one database and one nameserver that answers by a
script.  No time passes in it.
-/

namespace ZonePropagation.Session

structure World where
  file : String × String
  environment : Environment
  database : String × Registry.Table
  transport : Transport (StateM ScriptedServer)
  now : Timestamp

namespace World

def pathOf (url : String) : String :=
  let bare := if url.startsWith "sqlite:" then url.drop 7 else url.drop 0
  let bare := if bare.startsWith "//" then bare.drop 2 else bare
  (bare.takeWhile fun character => character != '?').toString

/-- The address is that of a new database: one in memory, or one in the current directory.  No other
directory can be written to. -/
def isFresh (url : String) : Bool :=
  !(pathOf url).contains '/'

def statusStore (world : World) : StatusStoreSetting → Except Fault Status.Store
  | .memory ttl => .ok (.memory { ttl := ttl * 1000 })
  | .sql url _ =>
      if isFresh url || url = world.database.1 then .ok (.table {})
      else .error (.database "unable to open database file")
  | .redis _ _ _ => .error (.cache "Failed to connect to Redis")

def registry (world : World) (url : String) : Except Fault Registry.Store :=
  if url = world.database.1 then .ok (.table world.database.2)
  else if isFresh url then .ok (.table {})
  else .error (.database "unable to open database file")

def settingsText (world : World) (path : String) : Except String String :=
  if path = world.file.1 then .ok world.file.2
  else .error "No such file or directory (os error 2)"

def host (world : World) : Host (StateM ScriptedServer) where
  settingsText := fun path => pure (world.settingsText path)
  environment := return world.environment
  transport := world.transport
  exchange := fun _ => return none
  clock := return ⟨0, world.now⟩
  openStatus := fun setting => return world.statusStore setting
  openRegistry := fun url => return world.registry url
  ticks := 0

def tablesAfter (world : World) (aftermath : Aftermath) : Registry.Table :=
  match aftermath.workplace with
  | none => world.database.2
  | some workplace =>
      match workplace.surroundings.registry with
      | .table tables =>
          if workplace.settings.registryUrl = world.database.1 then tables else world.database.2
      | .memory _ => world.database.2

end World

/-- How a run of the program ends: its status, its output, what it says of a failure, and the
tables of the database. -/
structure Ending where
  status : Nat
  lines : List String := []
  diagnostic : Option String := none
  tables : Registry.Table

def World.run (world : World) (arguments : List String) : StateM ScriptedServer Ending := do
  let tables := world.database.2
  match Command.ofArguments arguments with
  | .error .mistake => return { status := 2, tables }
  | .error .version => return { status := 0, lines := [Command.versionLine], tables }
  | .error (.help none) => return { status := 0, lines := Command.helpLines, tables }
  | .error (.help (some topic)) => return { status := 0, lines := topic.helpLines, tables }
  | .ok invocation =>
      let aftermath ← Session.run world.host invocation
      let diagnostic := aftermath.transcript.failure.map Failure.diagnostic
      return {
        status := if diagnostic.isSome then 1 else 0
        lines := aftermath.transcript.lines
        diagnostic
        tables := world.tablesAfter aftermath }

end ZonePropagation.Session
