import ZonePropagation.Json
import ZonePropagation.Zone.Criterion
/-!
Zones and criteria read from JSON documents.  The time of a zone is given in milliseconds, or as an
age in seconds.
-/

namespace ZonePropagation

/-- The action of a member, or the given one. -/
def ZoneAction.ofJsonOr (json : Json) (name : String) (fallback : ZoneAction) : ZoneAction :=
  match (json.get name).string?.map ZoneAction.ofText with
  | some (.ok action) => action
  | _ => fallback

def Zone.ofJson (now : Timestamp) (json : Json) : Zone where
  id := json.textOr "id" (json.textAt "name")
  name := json.textAt "name"
  serial := (json.natOr "serial" 1).toUInt32
  action := ZoneAction.ofJsonOr json "action" .create
  status := (ZoneStatus.ofText (json.textAt "status")).toOption.getD .pending
  poolId := json.textOr "pool_id" "default"
  updatedAt := match (json.get "age_s").int? with
    | some age => { now with second := now.second - age }
    | none => .ofMillis (((json.get "updated_at").int?).getD 0)

def ZoneCriterion.ofJson (json : Json) : ZoneCriterion where
  id := (json.get "id").string?
  name := (json.get "name").string?
  poolId := (json.get "pool_id").string?
  statuses := (json.textsAt "statuses").filterMap fun word => (ZoneStatus.ofText word).toOption
  updatedBefore := (json.get "updated_before").int?.map Timestamp.ofMillis
  updatedAfter := (json.get "updated_after").int?.map Timestamp.ofMillis
  limit := (json.get "limit").nat?

end ZonePropagation
