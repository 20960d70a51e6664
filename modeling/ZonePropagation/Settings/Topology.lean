import ZonePropagation.Settings.Validation
import ZonePropagation.Pool
import ZonePropagation.Probe.Client
/-!
What a manager is built from: the pools with their targets, the keys by name, and the client that
signs the traffic to each server.
-/

namespace ZonePropagation

def ServerSetting.nameserver (setting : ServerSetting) : Nameserver :=
  ⟨setting.host, setting.port⟩

def TargetSetting.target (setting : TargetSetting) (poolId : String) (index : Nat) : Target where
  id := s!"{poolId}-{index}-{setting.backendType}"
  backendType := setting.backendType
  masters := setting.masters.map ServerSetting.nameserver
  options := setting.options

def PoolSetting.pool (setting : PoolSetting) (threshold : Nat) : Pool where
  id := setting.id
  name := setting.name.getD setting.id
  targets := setting.targets.mapIdx fun index target => target.target setting.id index
  nameservers := setting.nameservers.map ServerSetting.nameserver
  alsoNotifies := setting.alsoNotifies.map ServerSetting.nameserver
  threshold := min (setting.threshold.getD threshold) 100

namespace Settings

def topology (settings : Settings) : Topology :=
  .ofPools (settings.pools.map fun pool => pool.pool settings.threshold)

def keysByName (settings : Settings) : Except SettingsError (List (String × SignatureKey)) :=
  settings.signatureKeys.foldlM (fun keys setting =>
    setting.decode.map fun key =>
      let name := KeySetting.plainName setting.name
      (name, key) :: keys.filter fun other => other.1 != name) []

/-- Every server of the pools: those verified, those only notified, and the targets' masters. -/
def servers (settings : Settings) : List ServerSetting :=
  settings.pools.flatMap fun pool =>
    pool.nameservers ++ pool.alsoNotifies ++ pool.targets.flatMap TargetSetting.masters

def serverKey (keys : List (String × SignatureKey)) (server : ServerSetting) :
    Except SettingsError (Option (Nameserver × SignatureKey)) :=
  match server.signatureKey with
  | none => .ok none
  | some name =>
      match keys.find? fun entry => entry.1 == KeySetting.plainName name with
      | some entry => .ok (some (server.nameserver, entry.2))
      | none => .error (.unknownKey name)

/-- The client that signs the traffic to each server with the key the server names.  Of two keys
for one server the last counts. -/
def client (settings : Settings) : Except SettingsError Client := do
  let keys ← settings.keysByName
  let servers ← settings.servers.mapM (serverKey keys)
  return { allTcp := settings.allTcp, keys := servers.filterMap id }

end Settings

end ZonePropagation
