import ZonePropagation.Fault
import ZonePropagation.Text.Quoted
/-!
Failures as diagnostics show them: the label of the cause with its particulars, texts in quotes.
-/

namespace ZonePropagation

def labelled (label particular : String) : String :=
  s!"{label}({particular})"

def labelledByName (label : String) (particulars : List (String × String)) : String :=
  let each (particular : String × String) : String :=
    particular.1 ++ ": " ++ Text.quoted particular.2
  label ++ " \x7b " ++ ", ".intercalate (particulars.map each) ++ " \x7d"

namespace SettingsError

def label : SettingsError → String
  | .unreadable _ _ => "Unreadable"
  | .unparsable => "ParseError"
  | .invalidValue _ _ => "InvalidValue"
  | .invalidThreshold _ => "InvalidThreshold"
  | .invalidTimeout _ => "InvalidTimeout"
  | .unknownBackend _ => "UnknownBackend"
  | .duplicatePool _ => "DuplicatePool"
  | .unknownKey _ => "UnknownTsigKey"
  | .invalidKey _ _ => "InvalidTsigKey"

def diagnostic (error : SettingsError) : String :=
  match error with
  | .unreadable path reason => labelledByName error.label [("path", path), ("reason", reason)]
  | .unparsable => labelled error.label (Text.quoted "")
  | .invalidValue field value => labelledByName error.label [("field", field), ("value", value)]
  | .invalidThreshold percentage => labelled error.label (toString percentage)
  | .invalidTimeout reason => labelled error.label (Text.quoted reason)
  | .unknownBackend type => labelled error.label (Text.quoted type)
  | .duplicatePool id => labelled error.label (Text.quoted id)
  | .unknownKey name => labelled error.label (Text.quoted name)
  | .invalidKey name reason => labelledByName error.label [("name", name), ("reason", reason)]

end SettingsError

namespace Fault

/-- The label of each cause; a failure of the settings has that of its own cause. -/
def label : Fault → String
  | .io _ => "Io"
  | .parse _ => "Parse"
  | .timeout => "Timeout"
  | .backend _ _ => "Backend"
  | .statusStore _ => "StatusStore"
  | .registry _ => "Central"
  | .cache _ => "Redis"
  | .database _ => "Sql"
  | .poolNotFound _ => "PoolNotFound"
  | .zoneNotFound _ => "ZoneNotFound"
  | .signature _ => "Tsig"
  | .metrics _ => "Metrics"
  | .settings cause => cause.label

def diagnostic (fault : Fault) : String :=
  match fault with
  | .timeout => fault.label
  | .backend type reason => labelledByName fault.label [("backend", type), ("message", reason)]
  | .settings cause => labelled "Config" cause.diagnostic
  | .io particular | .parse particular | .statusStore particular | .registry particular
  | .cache particular | .database particular | .poolNotFound particular
  | .zoneNotFound particular | .signature particular | .metrics particular =>
      labelled fault.label (Text.quoted particular)

end Fault

end ZonePropagation
