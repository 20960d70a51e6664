/-!
Failures of the settings and of the running manager, by cause.
-/

namespace ZonePropagation

inductive SettingsError where
  | unreadable (path reason : String)
  | unparsable
  | invalidValue (field value : String)
  | invalidThreshold (percentage : Nat)
  | invalidTimeout (reason : String)
  | unknownBackend (type : String)
  | duplicatePool (id : String)
  | unknownKey (name : String)
  | invalidKey (name reason : String)
deriving DecidableEq, Repr

/-- The wording of each cause.  The position of a syntax error is not kept. -/
def SettingsError.message : SettingsError → String
  | .unreadable path reason => s!"Failed to read config file {path}: {reason}"
  | .unparsable => "Config file parse error: "
  | .invalidValue field value => s!"Invalid value for {field}: {value}"
  | .invalidThreshold percentage => s!"Invalid threshold percentage {percentage} (must be 0-100)"
  | .invalidTimeout reason => s!"Invalid timeout: {reason}"
  | .unknownBackend type => "Backend type '" ++ type ++ "' is not enabled or not supported"
  | .duplicatePool id => s!"Duplicate pool id: {id}"
  | .unknownKey name => s!"Unknown TSIG key: {name}"
  | .invalidKey name reason => s!"Invalid TSIG key {name}: {reason}"

inductive Fault where
  | io (reason : String)
  | parse (reason : String)
  | timeout
  | backend (type reason : String)
  | statusStore (reason : String)
  | registry (reason : String)
  | cache (reason : String)
  | database (reason : String)
  | poolNotFound (id : String)
  | zoneNotFound (key : String)
  | signature (reason : String)
  | metrics (reason : String)
  | settings (cause : SettingsError)
deriving DecidableEq, Repr

def Fault.message : Fault → String
  | .io reason => s!"IO error: {reason}"
  | .parse reason => s!"Parse error: {reason}"
  | .timeout => "Operation timed out"
  | .backend type reason => s!"Backend {type} failed: {reason}"
  | .statusStore reason => s!"Status store error: {reason}"
  | .registry reason => s!"Central store error: {reason}"
  | .cache reason => s!"Redis error: {reason}"
  | .database reason => s!"SQL error: {reason}"
  | .poolNotFound id => s!"Pool not found: {id}"
  | .zoneNotFound key => s!"Zone not found: {key}"
  | .signature reason => s!"TSIG error: {reason}"
  | .metrics reason => s!"Metrics error: {reason}"
  | .settings cause => cause.message

end ZonePropagation
