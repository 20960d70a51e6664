import ZonePropagation.Nameserver
import ZonePropagation.Time.Timestamp
import ZonePropagation.Zone
/-!
Status records: what one nameserver has shown for one pending action of a zone.
-/

namespace ZonePropagation

structure StatusRecord where
  zoneId : String
  action : ZoneAction
  nameserver : Nameserver
  status : Status
  serial : Option UInt32
  updatedAt : Timestamp
deriving DecidableEq, Repr, Inhabited

def StatusRecord.isFor (record : StatusRecord) (zoneId : String) (action : ZoneAction) : Bool :=
  record.zoneId == zoneId && record.action == action

def StatusRecord.sameKey (left right : StatusRecord) : Bool :=
  left.isFor right.zoneId right.action && left.nameserver == right.nameserver

end ZonePropagation
