import ZonePropagation.Probe
import ZonePropagation.Settings
/-!
The part of the settings that governs verification, and the part that governs reconciliation.
-/

namespace ZonePropagation

/-- How a change is verified and its verdict delivered; times are in milliseconds. -/
structure VerificationPolicy where
  probe : ProbeOptions
  pollDelay : Nat := 0
  detached : Bool := false
  reportAttempts : Nat := 3
  reportBase : Nat := 100
deriving Repr

structure ReconciliationPolicy where
  recovery : Bool := true
  recoveryInterval : Nat := 120
  sync : Bool := true
  syncInterval : Nat := 1800
  pendingGrace : Nat := 600
  syncWindow : Option Nat := none
  maxZones : Nat := 100
  statusTtl : Nat := 3600
deriving Repr

namespace Settings

def verification (settings : Settings) : VerificationPolicy where
  probe := ⟨settings.pollTimeout * 1000, settings.pollRetryInterval * 1000, settings.pollMaxRetries⟩
  pollDelay := settings.pollDelay * 1000
  detached := settings.asyncVerification
  reportAttempts := settings.reportMaxAttempts

def reconciliation (settings : Settings) : ReconciliationPolicy where
  recovery := settings.enableRecovery
  recoveryInterval := settings.recoveryInterval
  sync := settings.enableSync
  syncInterval := settings.syncInterval
  pendingGrace := settings.pendingGrace
  syncWindow := settings.syncWindow
  maxZones := settings.maxZonesPerTick
  statusTtl := settings.statusStore.ttl

end Settings

end ZonePropagation
