import ZonePropagation.Json
import ZonePropagation.Metrics
import ZonePropagation.Pool
/-!
What a running manager tells about itself over HTTP: whether it is well, its counts and its pools.
-/

namespace ZonePropagation.Http

inductive Page where
  | health
  | metrics
  | pools
deriving DecidableEq, Repr

def Page.ofPath? : String → Option Page
  | "/health" => some .health
  | "/metrics" => some .metrics
  | "/pools" => some .pools
  | _ => none

/-- How a manager stands: its pools, its counts, the kind of its status store, and the seconds since
it started. -/
structure Standing where
  topology : Topology
  storeName : String
  metrics : Metrics := {}
  uptime : Nat := 0

inductive Content where
  | document (json : Json)
  | exposition (lines : List String)

def Content.mediaType : Content → String
  | .document _ => "application/json"
  | .exposition _ => "text/plain; charset=utf-8"

def summary (pool : Pool) : Json := .obj [
  ("id", .str pool.id),
  ("name", .str pool.name),
  ("threshold_percentage", .nat pool.threshold),
  ("required_successes", .nat pool.required),
  ("targets", .strings (pool.targets.map Target.id)),
  ("nameservers", .strings (pool.nameservers.map Nameserver.key)),
  ("also_notifies", .strings (pool.alsoNotifies.map Nameserver.key))]

def Standing.content (standing : Standing) : Page → Content
  | .health => .document (.obj [
      ("status", .str "healthy"),
      ("uptime_seconds", .nat standing.uptime),
      ("pools", .nat standing.topology.pools.length),
      ("status_store", .str standing.storeName)])
  | .metrics => .exposition standing.metrics.lines
  | .pools =>
      let sorted := standing.topology.pools.mergeSort fun left right => left.id ≤ right.id
      .document (.obj [("pools", .arr (sorted.map summary))])

/-- An answer of the service.  An answer to a request for the head alone has a media type and no
content. -/
structure Answer where
  status : Nat
  mediaType : Option String := none
  content : Option Content := none

def pathOf (target : String) : String :=
  String.ofList (target.toList.takeWhile fun character => character != '?' && character != '#')

def Standing.answer (standing : Standing) (method target : String) : Answer :=
  match Page.ofPath? (pathOf target) with
  | none => { status := 404 }
  | some page =>
      let content := standing.content page
      match method with
      | "GET" => { status := 200, mediaType := some content.mediaType, content := some content }
      | "HEAD" => { status := 200, mediaType := some content.mediaType }
      | _ => { status := 405 }

end ZonePropagation.Http
