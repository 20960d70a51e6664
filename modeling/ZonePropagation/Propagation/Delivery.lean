import ZonePropagation.Propagation.Effect
/-!
The delivery of a verdict to the registry of zones, repeated a bounded number of times.

The longest pause before a repetition doubles each time up to a cap, and a pause is picked at
random within it.  A zone that the registry does not know ends the delivery.
-/

namespace ZonePropagation.Propagation

def longestPause : Nat := 10000

def firstPause (base : Nat) : Nat :=
  min longestPause ((max 1 base + 1) / 2 * 2)

def nextPause (millis : Nat) : Nat :=
  min longestPause (2 * millis)

/-- Delivers a report, and again while it is refused and `left` repetitions are left, the first of
them after a pause of at most `millis`.  The answer tells whether the report was accepted. -/
def deliverAgain (report : Registry.Report) (millis : Nat) : (left : Nat) → Program Bool
  | 0 => do return (← perform (.deliver report)).isOk
  | left + 1 => do
      match ← perform (.deliver report) with
      | .ok () => return true
      | .error (.zoneNotFound _) => return false
      | .error _ =>
          perform (.pauseUpTo millis)
          deliverAgain report (nextPause millis) left

def deliver (policy : VerificationPolicy) (zone : Zone) (status : Status) (serial : UInt32) :
    Program Bool := do
  let accepted ← deliverAgain ⟨zone.id, status, serial⟩ (firstPause policy.reportBase)
    (policy.reportAttempts - 1)
  unless accepted do measure .reportFailure
  return accepted

end ZonePropagation.Propagation
