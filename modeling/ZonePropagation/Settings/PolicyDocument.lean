import ZonePropagation.Json
import ZonePropagation.Settings.Policy
/-!
JSON documents of the policies of verification and reconciliation.
-/

namespace ZonePropagation

def VerificationPolicy.members (policy : VerificationPolicy) : List (String × Json) := [
  ("timeout_s", .nat (policy.probe.timeout / 1000)),
  ("retry_interval_s", .nat (policy.probe.retryInterval / 1000)),
  ("max_retries", .nat policy.probe.maxRetries),
  ("poll_delay_s", .nat (policy.pollDelay / 1000)),
  ("async", .bool policy.detached),
  ("report_max_attempts", .nat policy.reportAttempts),
  ("report_retry_base_ms", .nat policy.reportBase)]

def ReconciliationPolicy.members (policy : ReconciliationPolicy) : List (String × Json) := [
  ("recovery", .bool policy.recovery),
  ("recovery_interval_s", .nat policy.recoveryInterval),
  ("sync", .bool policy.sync),
  ("sync_interval_s", .nat policy.syncInterval),
  ("sync_window_s", Json.ofOption Json.nat policy.syncWindow),
  ("pending_grace_s", .nat policy.pendingGrace),
  ("max_zones", .nat policy.maxZones),
  ("status_ttl_s", .nat policy.statusTtl)]

def Settings.policiesToJson (settings : Settings) : Json :=
  .obj (settings.verification.members ++ settings.reconciliation.members)

def ProbeOptions.ofJson (json : Json) : ProbeOptions where
  timeout := json.natOr "timeout_ms" 1000
  retryInterval := json.natOr "retry_interval_ms" 100
  maxRetries := json.natOr "max_retries" 3

def VerificationPolicy.ofJson (json : Json) : VerificationPolicy where
  probe := ProbeOptions.ofJson json
  pollDelay := json.natAt "poll_delay_ms"
  detached := json.flagAt "async"
  reportAttempts := json.natOr "report_max_attempts" 3
  reportBase := json.natOr "report_retry_base_ms" 1

def ReconciliationPolicy.ofJson (json : Json) : ReconciliationPolicy where
  recovery := json.flagOr "recovery" true
  recoveryInterval := json.natOr "recovery_interval_s" 120
  sync := json.flagOr "sync" true
  syncInterval := json.natOr "sync_interval_s" 1800
  pendingGrace := json.natOr "pending_grace_s" 60
  syncWindow := (json.get "sync_window_s").nat?
  maxZones := json.natOr "max_zones" 100
  statusTtl := json.natOr "status_ttl_s" 3600

end ZonePropagation
