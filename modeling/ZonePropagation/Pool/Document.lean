import ZonePropagation.Json
import ZonePropagation.Pool
import ZonePropagation.Quorum
/-!
JSON documents of pools and verdicts.  A nameserver is written as its key; it is read from any text
that names one, or from a host and a port.
-/

namespace ZonePropagation

/-- Reads a nameserver.  A text that names none is taken for a host. -/
def Nameserver.ofJson (json : Json) : Nameserver :=
  match json with
  | .str spelling => (Nameserver.ofText? spelling).getD ⟨spelling, Nameserver.defaultPort⟩
  | _ => ⟨json.textAt "host", (json.natOr "port" 53).toUInt16⟩

def Nameserver.listOfJson (json : Json) (name : String) : List Nameserver :=
  (json.get name).items.map ofJson

def Nameserver.listToJson (servers : List Nameserver) : Json :=
  .strings (servers.map Nameserver.key)

def Target.ofJson (json : Json) : Target where
  id := json.textAt "id"
  backendType := json.textOr "type" "fake"
  masters := Nameserver.listOfJson json "masters"
  options := (json.get "options").members.filterMap fun option =>
    option.2.string?.map fun value => (option.1, value)

def Target.toJson (target : Target) : Json := .obj [
  ("id", .str target.id), ("type", .str target.backendType),
  ("masters", Nameserver.listToJson target.masters),
  ("options", .obj (target.options.map fun option => (option.1, .str option.2)))]

def Pool.ofJson (json : Json) : Pool :=
  let id := json.textOr "id" "default"
  { id
    name := json.textOr "name" id
    targets := (json.get "targets").items.map Target.ofJson
    nameservers := Nameserver.listOfJson json "nameservers"
    alsoNotifies := Nameserver.listOfJson json "also_notifies"
    threshold := json.natOr "threshold" 100 }

def Pool.toJson (pool : Pool) : Json := .obj [
  ("id", .str pool.id), ("name", .str pool.name),
  ("targets", .arr (pool.targets.map Target.toJson)),
  ("nameservers", Nameserver.listToJson pool.nameservers),
  ("also_notifies", Nameserver.listToJson pool.alsoNotifies),
  ("threshold", .nat pool.threshold), ("required", .nat pool.required)]

def Verdict.toJson (verdict : Verdict) : Json :=
  let common := [("status", Json.str verdict.status.text), ("final", .bool verdict.isFinal)]
  match verdict with
  | .success serial | .error serial => .obj (common ++ [("serial", .nat serial.toNat)])
  | .pending successes required outstanding => .obj (common ++ [("successes", .nat successes),
      ("required", .nat required), ("outstanding", .nat outstanding)])

end ZonePropagation
