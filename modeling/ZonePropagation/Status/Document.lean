import ZonePropagation.Json
import ZonePropagation.Status.Record
/-!
The JSON form of status records.

An object may also be written as the array of its members in order, and a word of an enumeration
as an object whose only member has that name and the value null.
-/

namespace ZonePropagation.StatusRecord

def wordOf? : Json → Option String
  | .str word => some word
  | .obj [(word, .null)] => some word
  | _ => none

def valueOf? {α : Type} (text : α → String) (all : List α) (json : Json) : Option α := do
  let word ← wordOf? json
  all.find? fun value => text value == word

/-- The members of an object by name, or an array's by position. -/
def membersOf? (names : List String) : Json → Option (List (Option Json))
  | .obj members => some (names.map fun name => (members.find? fun member => member.1 == name).map Prod.snd)
  | .arr items => if items.length = names.length then some (items.map some) else none
  | _ => none

def unsigned? (bits : Nat) (json : Json) : Option Nat :=
  json.nat?.filter fun value => value < Nat.pow 2 bits

def nameserverOf? (json : Json) : Option Nameserver := do
  match ← membersOf? ["host", "port"] json with
  | [some host, some port] =>
      let host ← host.string?
      let port ← unsigned? 16 port
      return ⟨host, port.toUInt16⟩
  | _ => none

/-- An optional serial; an absent member and null are none. -/
def serialOf? : Option Json → Option (Option UInt32)
  | none | some .null => some none
  | some json => (unsigned? 32 json).map fun serial => some serial.toUInt32

def ofJson? (json : Json) : Option StatusRecord := do
  let names := ["zone_id", "action", "nameserver", "status", "serial", "updated_at"]
  match ← membersOf? names json with
  | [some zoneId, some action, some nameserver, some status, serial, some updatedAt] =>
      let zoneId ← zoneId.string?
      let action ← valueOf? ZoneAction.text ZoneAction.all action
      let nameserver ← nameserverOf? nameserver
      let status ← valueOf? Status.text Status.all status
      let serial ← serialOf? serial
      let time ← updatedAt.string?
      let updatedAt ← Timestamp.ofText? time
      return { zoneId, action, nameserver, status, serial, updatedAt }
  | _ => none

def toJson (record : StatusRecord) : Json := .obj [
  ("zone_id", .str record.zoneId), ("action", .str record.action.text),
  ("nameserver", .obj [("host", .str record.nameserver.host),
    ("port", .nat record.nameserver.port.toNat)]),
  ("status", .str record.status.text),
  ("serial", Json.ofOption (fun serial => .nat serial.toNat) record.serial),
  ("updated_at", .str record.updatedAt.text)]

end ZonePropagation.StatusRecord
