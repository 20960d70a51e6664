import ZonePropagation.Pool
import ZonePropagation.Status.Record
/-!
The verdict of a pool over the rows of its nameservers.

A nameserver without a row, or with a pending one, is outstanding.  A success behind the expected
serial counts as a failure, and a success without a serial holds the expected one.  The verdict
is success as soon as enough nameservers hold the expected serial or a newer one, an error as soon
as no outstanding result can make them enough, and pending until then.
-/

namespace ZonePropagation

inductive Verdict where
  | success (serial : UInt32)
  | error (serial : UInt32)
  | pending (successes required outstanding : Nat)
deriving DecidableEq, Repr

namespace Verdict

def status : Verdict → Status
  | .success _ => .success
  | .error _ => .error
  | .pending _ _ _ => .pending

def isFinal : Verdict → Bool
  | .pending _ _ _ => false
  | _ => true

/-- The result and serial to report, once the verdict is final. -/
def report? : Verdict → Option (Status × UInt32)
  | .success serial => some (.success, serial)
  | .error serial => some (.error, serial)
  | .pending _ _ _ => none

end Verdict

namespace Quorum

def confirmed (expected : UInt32) (records : List StatusRecord) : List UInt32 :=
  ((records.filter fun record => record.status == .success).map fun record =>
    record.serial.getD expected).filter fun serial => Serial.isAtLeast serial expected

def settled (records : List StatusRecord) : Nat :=
  records.countP fun record => record.status != .pending

/-- The verdict on the rows of a pool with `total` nameservers. -/
def evaluate (records : List StatusRecord) (total threshold : Nat) (expected : UInt32) :
    Verdict :=
  let required := requiredSuccesses total threshold
  if required = 0 then .success expected
  else
    let serials := confirmed expected records
    let successes := serials.length
    let errors := settled records - successes
    let outstanding := total - (successes + errors)
    if required ≤ successes then
      .success ((Serial.newestFirst expected serials).getD (required - 1) expected)
    else if successes + outstanding < required then .error expected
    else .pending successes required outstanding

end Quorum

end ZonePropagation
