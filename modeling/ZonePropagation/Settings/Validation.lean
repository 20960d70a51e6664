import ZonePropagation.Settings
import ZonePropagation.Fault
import ZonePropagation.Signature
/-!
What settings have to meet before a manager starts on them.  The checks are made in order, and
the first that fails gives the error.
-/

namespace ZonePropagation

def SettingsError.require (cause : SettingsError) (condition : Bool) : Except SettingsError Unit :=
  if condition then .ok () else .error cause

def KeySetting.decode (setting : KeySetting) : Except SettingsError SignatureKey :=
  match SignatureKey.ofBase64 setting.name setting.algorithm setting.secret with
  | .ok key => .ok key
  | .error error => .error (.invalidKey setting.name error.text)

namespace Settings

open SettingsError

def checkNumbers (settings : Settings) : Except SettingsError Unit := do
  require (.invalidThreshold settings.threshold) (settings.threshold ≤ 100)
  require (.invalidTimeout "poll_timeout must be greater than 0") (settings.pollTimeout != 0)
  require (.invalidTimeout "poll_timeout too large (max 300 seconds)") (settings.pollTimeout ≤ 300)
  require (.invalidValue "poll_max_retries" "0") (settings.pollMaxRetries != 0)
  require (.invalidValue "report_max_attempts" "0") (settings.reportMaxAttempts != 0)
  require (.invalidValue "max_zones_per_tick" "0") (settings.maxZonesPerTick != 0)
  require (.invalidValue "periodic_recovery_interval" "0")
    (!settings.enableRecovery || settings.recoveryInterval != 0)
  require (.invalidValue "periodic_sync_interval" "0")
    (!settings.enableSync || settings.syncInterval != 0)

/-- The backend type is enabled, and there is a driver for it. -/
def allowsBackend (settings : Settings) (type : String) : Bool :=
  settings.backends.contains type && backendTypes.contains type

def hasKeyNamed (settings : Settings) (name : String) : Bool :=
  settings.signatureKeys.any fun key =>
    KeySetting.plainName key.name == KeySetting.plainName name

def checkServer (settings : Settings) (server : ServerSetting) : Except SettingsError Unit :=
  match server.signatureKey with
  | some name => require (.unknownKey name) (settings.hasKeyNamed name)
  | none => .ok ()

/-- Checks a pool that follows the pools with the given ids. -/
def checkPool (settings : Settings) (earlier : List String) (pool : PoolSetting) :
    Except SettingsError Unit := do
  require (.duplicatePool pool.id) (!earlier.contains pool.id)
  let threshold := pool.threshold.getD 0
  require (.invalidThreshold threshold) (threshold ≤ 100)
  pool.targets.forM fun target =>
    require (.unknownBackend target.backendType) (settings.allowsBackend target.backendType)
  (pool.nameservers ++ pool.alsoNotifies).forM settings.checkServer

def checkPools (settings : Settings) (earlier : List String) :
    List PoolSetting → Except SettingsError Unit
  | [] => .ok ()
  | pool :: rest => do
      settings.checkPool earlier pool
      settings.checkPools (pool.id :: earlier) rest

def validate (settings : Settings) : Except SettingsError Unit := do
  settings.checkNumbers
  settings.signatureKeys.forM fun key => key.decode.map fun _ => ()
  settings.checkPools [] settings.pools

end Settings

end ZonePropagation
