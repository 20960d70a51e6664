import ZonePropagation.Settings
import ZonePropagation.Fault
import ZonePropagation.Text.Numeral
/-!
Environment variables that override settings.  They are looked at in a fixed order; the first
whose value cannot be used ends the reading, and what the earlier ones changed stays changed.
-/

namespace ZonePropagation

abbrev Environment := String → Option String

abbrev SettingsOverride := Environment → Settings → Except SettingsError Settings

namespace SettingsOverride

def number (key field : String) (bound : Nat) (set : Settings → Nat → Settings) :
    SettingsOverride := fun environment settings =>
  match environment key with
  | none => .ok settings
  | some value =>
      match Text.numeral? bound (Text.trim value) with
      | some number => .ok (set settings number)
      | none => .error (.invalidValue field value)

def truthValue? (word : String) : Option Bool :=
  let lower := Text.lowercase word
  if ["true", "1", "yes", "on"].contains lower then some true
  else if ["false", "0", "no", "off"].contains lower then some false
  else none

def flag (key : String) (set : Settings → Bool → Settings) : SettingsOverride :=
  fun environment settings =>
    match (environment key).bind truthValue? with
    | some value => .ok (set settings value)
    | none => .ok settings

def backends (key : String) : SettingsOverride := fun environment settings =>
  match environment key with
  | none => .ok settings
  | some value =>
      let types := ((value.splitOn ",").map Text.trim).filter fun type => type != ""
      .ok { settings with backends := types }

def registryUrl (key : String) : SettingsOverride := fun environment settings =>
  match environment key with
  | none => .ok settings
  | some value => .ok (if value == "" then settings else { settings with registryUrl := value })

/-- A shared cache for the status rows, unless its address is empty.  The rows' lifetime stays. -/
def cache (key prefixKey : String) : SettingsOverride := fun environment settings =>
  match environment key with
  | none => .ok settings
  | some url =>
      let keyPrefix := (environment prefixKey).getD defaultKeyPrefix
      .ok (if url == "" then settings
        else { settings with statusStore := .redis url keyPrefix settings.statusStore.ttl })

/-- The word that turns the metrics server off, in any case of its ASCII letters. -/
def meansDisabled (value : String) : Bool :=
  value == "" || String.ofList (value.toList.map Char.toLower) == "disabled"

def httpEndpoint (key : String) : SettingsOverride := fun environment settings =>
  match environment key with
  | none => .ok settings
  | some value =>
      if meansDisabled value then .ok { settings with httpEndpoint := none }
      else
        match Endpoint.ofText? value with
        | some endpoint => .ok { settings with httpEndpoint := some endpoint }
        | none => .error (.invalidValue "http_bind_addr" value)

end SettingsOverride

namespace Settings

open SettingsOverride

def overrides : List SettingsOverride := [
  number "ZONEPOOL_THRESHOLD_PERCENTAGE" "threshold_percentage" 65535
    fun settings value => { settings with threshold := value },
  number "ZONEPOOL_POLL_TIMEOUT" "poll_timeout" 18446744073709551615
    fun settings value => { settings with pollTimeout := value },
  number "ZONEPOOL_POLL_RETRY_INTERVAL" "poll_retry_interval" 18446744073709551615
    fun settings value => { settings with pollRetryInterval := value },
  number "ZONEPOOL_POLL_MAX_RETRIES" "poll_max_retries" 4294967295
    fun settings value => { settings with pollMaxRetries := value },
  number "ZONEPOOL_POLL_DELAY" "poll_delay" 18446744073709551615
    fun settings value => { settings with pollDelay := value },
  flag "ZONEPOOL_ENABLE_RECOVERY_TIMER"
    fun settings value => { settings with enableRecovery := value },
  flag "ZONEPOOL_ENABLE_SYNC_TIMER" fun settings value => { settings with enableSync := value },
  flag "ZONEPOOL_ALL_TCP" fun settings value => { settings with allTcp := value },
  flag "ZONEPOOL_ASYNC_VERIFICATION"
    fun settings value => { settings with asyncVerification := value },
  SettingsOverride.backends "ZONEPOOL_BACKENDS",
  SettingsOverride.registryUrl "ZONEPOOL_CENTRAL_URL",
  cache "ZONEPOOL_REDIS_URL" "ZONEPOOL_REDIS_KEY_PREFIX",
  SettingsOverride.httpEndpoint "ZONEPOOL_HTTP_BIND_ADDR"]

def variableNames : List String := [
  "ZONEPOOL_THRESHOLD_PERCENTAGE", "ZONEPOOL_POLL_TIMEOUT", "ZONEPOOL_POLL_RETRY_INTERVAL",
  "ZONEPOOL_POLL_MAX_RETRIES", "ZONEPOOL_POLL_DELAY", "ZONEPOOL_ENABLE_RECOVERY_TIMER",
  "ZONEPOOL_ENABLE_SYNC_TIMER", "ZONEPOOL_ALL_TCP", "ZONEPOOL_ASYNC_VERIFICATION",
  "ZONEPOOL_BACKENDS", "ZONEPOOL_CENTRAL_URL", "ZONEPOOL_REDIS_URL",
  "ZONEPOOL_REDIS_KEY_PREFIX", "ZONEPOOL_HTTP_BIND_ADDR"]

/-- The settings after a sequence of overrides, and the error that ended it, if one did. -/
def overriddenBy (environment : Environment) (settings : Settings) :
    List SettingsOverride → Settings × Option SettingsError
  | [] => (settings, none)
  | first :: rest =>
      match first environment settings with
      | .ok changed => overriddenBy environment changed rest
      | .error cause => (settings, some cause)

def overridden (environment : Environment) (settings : Settings) :
    Settings × Option SettingsError :=
  settings.overriddenBy environment overrides

end Settings

end ZonePropagation
