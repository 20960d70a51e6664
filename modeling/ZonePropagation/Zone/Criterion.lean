import ZonePropagation.Zone
/-!
Filters on zones.  A zone is selected when it meets every condition given; the limit applies to a
selection as a whole.
-/

namespace ZonePropagation

structure ZoneCriterion where
  id : Option String := none
  name : Option String := none
  poolId : Option String := none
  statuses : List ZoneStatus := []
  updatedBefore : Option Timestamp := none
  updatedAfter : Option Timestamp := none
  limit : Option Nat := none
deriving DecidableEq, Repr, Inhabited

namespace ZoneCriterion

def byId (id : String) : ZoneCriterion := { id := some id }

def byName (name : String) : ZoneCriterion := { name := some name }

def holds {α : Type} (condition : Option α) (test : α → Bool) : Bool :=
  match condition with
  | some value => test value
  | none => true

/-- The zone meets every condition; the limit is none. -/
def selects (criterion : ZoneCriterion) (zone : Zone) : Bool :=
  holds criterion.id (fun id => zone.id == id) &&
    holds criterion.name (fun name => Name.sameName name zone.name) &&
    holds criterion.poolId (fun poolId => zone.poolId == poolId) &&
    (criterion.statuses.isEmpty || criterion.statuses.contains zone.status) &&
    holds criterion.updatedBefore (fun bound => zone.updatedAt < bound) &&
    holds criterion.updatedAfter (fun bound => bound < zone.updatedAt)

def limited {α : Type} (criterion : ZoneCriterion) (items : List α) : List α :=
  match criterion.limit with
  | some limit => items.take limit
  | none => items

end ZoneCriterion

end ZonePropagation
