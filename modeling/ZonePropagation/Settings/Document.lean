import ZonePropagation.Json
import ZonePropagation.Settings
/-!
JSON documents of settings, with the names that the settings file uses.
-/

namespace ZonePropagation

def ServerSetting.toJson (server : ServerSetting) : Json := .obj [
  ("host", .str server.host), ("port", .nat server.port.toNat),
  ("tsig_key", Json.ofOption Json.str server.signatureKey)]

def TargetSetting.toJson (target : TargetSetting) : Json := .obj [
  ("type", .str target.backendType),
  ("masters", .arr (target.masters.map ServerSetting.toJson)),
  ("options", .obj (target.options.map fun option => (option.1, .str option.2)))]

def PoolSetting.toJson (pool : PoolSetting) : Json := .obj [
  ("id", .str pool.id), ("name", Json.ofOption Json.str pool.name),
  ("threshold_percentage", Json.ofOption Json.nat pool.threshold),
  ("targets", .arr (pool.targets.map TargetSetting.toJson)),
  ("nameservers", .arr (pool.nameservers.map ServerSetting.toJson)),
  ("also_notifies", .arr (pool.alsoNotifies.map ServerSetting.toJson))]

def KeySetting.toJson (key : KeySetting) : Json := .obj [
  ("name", .str key.name), ("algorithm", .str key.algorithm), ("secret", .str key.secret)]

def StatusStoreSetting.toJson : StatusStoreSetting → Json
  | .memory ttl => .obj [("kind", .str "memory"), ("ttl", .nat ttl)]
  | .redis url keyPrefix ttl => .obj [("kind", .str "redis"), ("url", .str url),
      ("key_prefix", .str keyPrefix), ("ttl", .nat ttl)]
  | .sql url ttl => .obj [("kind", .str "sql"), ("url", .str url), ("ttl", .nat ttl)]

def Settings.toJson (settings : Settings) : Json := .obj [
  ("threshold_percentage", .nat settings.threshold),
  ("poll_timeout", .nat settings.pollTimeout),
  ("poll_retry_interval", .nat settings.pollRetryInterval),
  ("poll_max_retries", .nat settings.pollMaxRetries),
  ("poll_delay", .nat settings.pollDelay),
  ("enable_recovery_timer", .bool settings.enableRecovery),
  ("periodic_recovery_interval", .nat settings.recoveryInterval),
  ("enable_sync_timer", .bool settings.enableSync),
  ("periodic_sync_interval", .nat settings.syncInterval),
  ("periodic_sync_seconds", Json.ofOption Json.nat settings.syncWindow),
  ("max_zones_per_tick", .nat settings.maxZonesPerTick),
  ("recovery_pending_grace", .nat settings.pendingGrace),
  ("all_tcp", .bool settings.allTcp),
  ("async_verification", .bool settings.asyncVerification),
  ("report_max_attempts", .nat settings.reportMaxAttempts),
  ("backends", .strings settings.backends),
  ("status_store", settings.statusStore.toJson),
  ("central_url", .str settings.registryUrl),
  ("http_bind_addr", Json.ofOption (fun endpoint => .str (Endpoint.text endpoint))
    settings.httpEndpoint),
  ("tsig_keys", .arr (settings.signatureKeys.map KeySetting.toJson)),
  ("pools", .arr (settings.pools.map PoolSetting.toJson))]

end ZonePropagation
