import ZonePropagation.Settings
import ZonePropagation.Fault
import ZonePropagation.Toml.Reader
/-!
Settings from a TOML document.  A field that is absent keeps its default, and a name that is no
field is passed over; a value of the wrong kind or outside its field's range fails the document.
-/

namespace ZonePropagation

/-- The largest values of fields of 16, 32 and 64 bits. -/
def widest16 : Nat := 65535
@[inherit_doc widest16] def widest32 : Nat := 4294967295
@[inherit_doc widest16] def widest64 : Nat := 18446744073709551615

open Toml

def ServerSetting.ofToml? (toml : Toml) : Option ServerSetting := do
  let entries ← toml.record? ["host", "port", "tsig_key"]
  return {
    host := ← required entries "host" text?
    port := (← fieldOr entries "port" (natural? widest16) 53).toUInt16
    signatureKey := ← field? entries "tsig_key" text? }

def TargetSetting.ofToml? (toml : Toml) : Option TargetSetting := do
  let entries ← toml.record? ["type", "masters", "options"]
  return {
    backendType := ← required entries "type" text?
    masters := ← fieldOr entries "masters" (list? ServerSetting.ofToml?) []
    options := ← fieldOr entries "options" (entries? text?) [] }

def PoolSetting.ofToml? (toml : Toml) : Option PoolSetting := do
  let entries ← toml.record?
    ["id", "name", "threshold_percentage", "targets", "nameservers", "also_notifies"]
  return {
    id := ← required entries "id" text?
    name := ← field? entries "name" text?
    threshold := ← field? entries "threshold_percentage" (natural? widest16)
    targets := ← fieldOr entries "targets" (list? TargetSetting.ofToml?) []
    nameservers := ← fieldOr entries "nameservers" (list? ServerSetting.ofToml?) []
    alsoNotifies := ← fieldOr entries "also_notifies" (list? ServerSetting.ofToml?) [] }

def KeySetting.ofToml? (toml : Toml) : Option KeySetting := do
  let entries ← toml.record? ["name", "algorithm", "secret"]
  return {
    name := ← required entries "name" text?
    algorithm := ← fieldOr entries "algorithm" text? "hmac-sha256"
    secret := ← required entries "secret" text? }

/-- The fields of each kind of status store, in their order. -/
def StatusStoreSetting.fields : String → Option (List String)
  | "memory" => some ["ttl"]
  | "redis" => some ["url", "key_prefix", "ttl"]
  | "sql" => some ["url", "ttl"]
  | _ => none

/-- The kind of a status store and its fields.  In an array the kind comes first, and no more
values than fields may follow. -/
def StatusStoreSetting.tagged? : Toml → Option (String × List (String × Toml))
  | .table entries => do return (← required entries "kind" text?, entries)
  | .array (kind :: values) => do
      let kind ← kind.text?
      let fields ← fields kind
      if values.length ≤ fields.length then return (kind, fields.zip values) else none
  | _ => none

def StatusStoreSetting.ofToml? (toml : Toml) : Option StatusStoreSetting := do
  let (kind, entries) ← tagged? toml
  let ttl := fieldOr entries "ttl" (natural? widest64) defaultStatusTtl
  match kind with
  | "memory" => return .memory (← ttl)
  | "redis" =>
      return .redis (← required entries "url" text?)
        (← fieldOr entries "key_prefix" text? defaultKeyPrefix) (← ttl)
  | "sql" => return .sql (← required entries "url" text?) (← ttl)
  | _ => none

namespace Settings

def ofToml? (toml : Toml) : Option Settings := do
  let entries ← match toml with
    | .table entries => some entries
    | _ => none
  let default : Settings := {}
  let natural (name : String) (bound value : Nat) : Option Nat :=
    fieldOr entries name (natural? bound) value
  let flag (name : String) (value : Bool) : Option Bool := fieldOr entries name flag? value
  let endpoint? (toml : Toml) : Option (Option Endpoint) :=
    (toml.text?.bind Endpoint.ofText?).map some
  return {
    threshold := ← natural "threshold_percentage" widest16 default.threshold
    pollTimeout := ← natural "poll_timeout" widest64 default.pollTimeout
    pollRetryInterval := ← natural "poll_retry_interval" widest64 default.pollRetryInterval
    pollMaxRetries := ← natural "poll_max_retries" widest32 default.pollMaxRetries
    pollDelay := ← natural "poll_delay" widest64 default.pollDelay
    enableRecovery := ← flag "enable_recovery_timer" default.enableRecovery
    recoveryInterval := ← natural "periodic_recovery_interval" widest64 default.recoveryInterval
    enableSync := ← flag "enable_sync_timer" default.enableSync
    syncInterval := ← natural "periodic_sync_interval" widest64 default.syncInterval
    syncWindow := ← field? entries "periodic_sync_seconds" (natural? widest64)
    maxZonesPerTick := ← natural "max_zones_per_tick" widest64 default.maxZonesPerTick
    pendingGrace := ← natural "recovery_pending_grace" widest64 default.pendingGrace
    allTcp := ← flag "all_tcp" default.allTcp
    asyncVerification := ← flag "async_verification" default.asyncVerification
    reportMaxAttempts := ← natural "report_max_attempts" widest64 default.reportMaxAttempts
    backends := ← fieldOr entries "backends" (list? text?) default.backends
    statusStore :=
      ← fieldOr entries "status_store" StatusStoreSetting.ofToml? default.statusStore
    registryUrl := ← fieldOr entries "central_url" text? default.registryUrl
    httpEndpoint := ← fieldOr entries "http_bind_addr" endpoint? default.httpEndpoint
    signatureKeys := ← fieldOr entries "tsig_keys" (list? KeySetting.ofToml?) []
    pools := ← fieldOr entries "pools" (list? PoolSetting.ofToml?) [] }

def ofText (text : String) : Except SettingsError Settings :=
  match (Toml.parse? text).bind ofToml? with
  | some settings => .ok settings
  | none => .error .unparsable

end Settings

end ZonePropagation
