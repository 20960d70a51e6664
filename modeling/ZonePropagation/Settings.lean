import ZonePropagation.Endpoint
import ZonePropagation.Text.Blank
import ZonePropagation.Text.Lowercase
/-!
Settings of the manager: how zones are verified, which timers run, where status rows, zones and
metrics live, and the pools with their servers.  Times are in seconds.
-/

namespace ZonePropagation

inductive StatusStoreSetting where
  | memory (ttl : Nat)
  | redis (url keyPrefix : String) (ttl : Nat)
  | sql (url : String) (ttl : Nat)
deriving DecidableEq, Repr

def StatusStoreSetting.ttl : StatusStoreSetting → Nat
  | .memory ttl => ttl
  | .redis _ _ ttl => ttl
  | .sql _ ttl => ttl

/-- A server, with the name of the key that signs the traffic to it. -/
structure ServerSetting where
  host : String
  port : UInt16 := 53
  signatureKey : Option String := none
deriving DecidableEq, Repr

structure TargetSetting where
  backendType : String
  masters : List ServerSetting := []
  options : List (String × String) := []
deriving DecidableEq, Repr

/-- A pool.  Its threshold, when present, stands in for the common one. -/
structure PoolSetting where
  id : String
  name : Option String := none
  threshold : Option Nat := none
  targets : List TargetSetting := []
  nameservers : List ServerSetting := []
  alsoNotifies : List ServerSetting := []
deriving DecidableEq, Repr

structure KeySetting where
  name : String
  algorithm : String := "hmac-sha256"
  secret : String
deriving DecidableEq, Repr

def defaultStatusTtl : Nat := 3600

def defaultKeyPrefix : String := "zonepool:status"

def backendTypes : List String := ["bind9", "powerdns", "fake"]

structure Settings where
  threshold : Nat := 100
  pollTimeout : Nat := 30
  pollRetryInterval : Nat := 15
  pollMaxRetries : Nat := 10
  pollDelay : Nat := 5
  enableRecovery : Bool := true
  recoveryInterval : Nat := 120
  enableSync : Bool := true
  syncInterval : Nat := 1800
  syncWindow : Option Nat := none
  maxZonesPerTick : Nat := 100
  pendingGrace : Nat := 600
  allTcp : Bool := false
  asyncVerification : Bool := false
  reportMaxAttempts : Nat := 3
  backends : List String := backendTypes
  statusStore : StatusStoreSetting := .memory defaultStatusTtl
  registryUrl : String := "sqlite://zonepool.db?mode=rwc"
  httpEndpoint : Option Endpoint := some ⟨.version4 127 0 0 1, 9053⟩
  signatureKeys : List KeySetting := []
  pools : List PoolSetting := []
deriving Repr

def KeySetting.plainName (name : String) : String :=
  Text.lowercase (Text.trimDots name)

end ZonePropagation
