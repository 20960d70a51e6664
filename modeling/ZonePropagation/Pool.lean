import ZonePropagation.Fault
import ZonePropagation.Nameserver
/-!
Pools: the targets a zone change is written to, and the nameservers that confirm it.

A pool accepts a change when its threshold percentage of nameservers, rounded up, has confirmed
it.  Servers that are only notified never count.
-/

namespace ZonePropagation

structure Target where
  id : String
  backendType : String
  masters : List Nameserver := []
  options : List (String × String) := []
deriving DecidableEq, Repr, Inhabited

def Target.option? (target : Target) (name : String) : Option String :=
  (target.options.find? fun option => option.1 == name).map Prod.snd

structure Pool where
  id : String
  name : String
  targets : List Target := []
  nameservers : List Nameserver := []
  alsoNotifies : List Nameserver := []
  threshold : Nat := 100
deriving DecidableEq, Repr, Inhabited

/-- The least number of confirmations that reaches a percentage of `total`. -/
def requiredSuccesses (total threshold : Nat) : Nat :=
  (total * threshold + 99) / 100

namespace Pool

def required (pool : Pool) : Nat :=
  requiredSuccesses pool.nameservers.length pool.threshold

def hasNameserver (pool : Pool) (server : Nameserver) : Bool :=
  pool.nameservers.contains server

end Pool

structure Topology where
  pools : List Pool := []
deriving Repr, Inhabited

namespace Topology

def insert (topology : Topology) (pool : Pool) : Topology :=
  ⟨(topology.pools.filter fun other => other.id != pool.id) ++ [pool]⟩

/-- The topology of a list of pools, of which the last with an id counts. -/
def ofPools (pools : List Pool) : Topology :=
  pools.foldl insert {}

def get? (topology : Topology) (id : String) : Option Pool :=
  topology.pools.find? fun pool => pool.id == id

def get (topology : Topology) (id : String) : Except Fault Pool :=
  match topology.get? id with
  | some pool => .ok pool
  | none => .error (.poolNotFound id)

end Topology

end ZonePropagation
