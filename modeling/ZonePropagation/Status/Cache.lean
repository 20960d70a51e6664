import ZonePropagation.Status.Encoding
/-!
Status records in a shared cache of hashes.

Each zone action is one hash with a field per nameserver; the value of a field is the binary form
of its row.  Every write renews the expiry of the whole hash, and a field whose value cannot be
read is skipped.
-/

namespace ZonePropagation.Status

inductive CacheCommand where
  | setField (key field : String) (value : List UInt8)
  | expire (key : String) (seconds : Int)
  | fields (key : String)
  | delete (key : String)
deriving DecidableEq, Repr

/-- The hashes of a cache; a hash lists its fields in the order of their first writing. -/
structure CacheServer where
  hashes : List (String × List (String × List UInt8)) := []
deriving Repr, Inhabited

namespace CacheServer

def fields (server : CacheServer) (key : String) : List (String × List UInt8) :=
  ((server.hashes.find? fun hash => hash.1 == key).map Prod.snd).getD []

def setIn (field : String) (value : List UInt8) :
    List (String × List UInt8) → List (String × List UInt8)
  | [] => [(field, value)]
  | (name, old) :: rest =>
      if name == field then (field, value) :: rest else (name, old) :: setIn field value rest

def run (server : CacheServer) : CacheCommand → CacheServer
  | .setField key field value =>
      let others := server.hashes.filter fun hash => hash.1 != key
      ⟨others ++ [(key, setIn field value (server.fields key))]⟩
  | .delete key => ⟨server.hashes.filter fun hash => hash.1 != key⟩
  | .expire _ _ => server
  | .fields _ => server

end CacheServer

structure Cache where
  keyStart : String
  ttlSeconds : Nat
deriving Repr, Inhabited

namespace Cache

def key (cache : Cache) (zoneId : String) (action : ZoneAction) : String :=
  cache.keyStart ++ ":" ++ zoneId ++ ":" ++ action.text

/-- The seconds a hash lives after a write: at least one, as a signed 64-bit number. -/
def expiry (cache : Cache) : Int :=
  Int.bmod (max cache.ttlSeconds 1) (Nat.pow 2 64)

def store (cache : Cache) (record : StatusRecord) : List CacheCommand :=
  let key := cache.key record.zoneId record.action
  [.setField key record.nameserver.key (Encoding.write record), .expire key cache.expiry]

def rows (fields : List (String × List UInt8)) : List StatusRecord :=
  fields.filterMap fun field => (Encoding.read? field.2).map Prod.fst

def retrieve (cache : Cache) (server : CacheServer) (zoneId : String) (action : ZoneAction) :
    List StatusRecord :=
  rows (server.fields (cache.key zoneId action))

/-- The command that removes the rows of a zone's action. -/
def clear (cache : Cache) (zoneId : String) (action : ZoneAction) : CacheCommand :=
  .delete (cache.key zoneId action)

end Cache

end ZonePropagation.Status
