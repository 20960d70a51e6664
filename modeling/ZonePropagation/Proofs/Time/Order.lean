import Mathlib
import ZonePropagation.Proofs.Time.Range
/-!
Points in time in their order.

The second decides which of two points is the earlier one, and for equal seconds the nanoseconds
do.  This is a linear order, and points of whole milliseconds stand in the order of their numbers.
-/

namespace ZonePropagation.Timestamp

variable {left right time bound : Timestamp}

theorem lt_iff : left < right ↔
    left.second < right.second ∨ left.second = right.second ∧ left.nano < right.nano :=
  isBefore_iff left right

theorem le_iff : left ≤ right ↔
    left.second < right.second ∨ left.second = right.second ∧ left.nano ≤ right.nano := by
  change ¬right < left ↔ _
  rw [lt_iff]
  omega

instance : LinearOrder Timestamp where
  le_refl time := le_iff.mpr (by omega)
  le_trans first second third := by
    rw [le_iff, le_iff, le_iff]
    omega
  lt_iff_le_not_ge left right := by
    rw [lt_iff, le_iff, le_iff]
    omega
  le_antisymm left right before after := by
    rw [le_iff] at before after
    cases left with
    | mk leftSecond leftNano =>
        cases right with
        | mk rightSecond rightNano =>
            have seconds : leftSecond = rightSecond := by
              dsimp only at before after
              omega
            have nanos : leftNano = rightNano := by
              dsimp only at before after
              omega
            rw [seconds, nanos]
  le_total left right := by
    rw [le_iff, le_iff]
    omega
  toDecidableLE := inferInstance
  toDecidableLT := inferInstance
  toDecidableEq := inferInstance

theorem ofMillis_lt_iff (left right : Int) : ofMillis left < ofMillis right ↔ left < right :=
  isBefore_ofMillis_iff left right

theorem ofMillis_injective : Function.Injective ofMillis :=
  Function.LeftInverse.injective toMillis_ofMillis

/-- The point is that of a whole number of milliseconds. -/
def OnMilli (time : Timestamp) : Prop := time = ofMillis time.toMillis

instance (time : Timestamp) : Decidable time.OnMilli := inferInstanceAs (Decidable (_ = _))

theorem IsWhole.onMilli (whole : time.IsWhole) : time.OnMilli := whole.1

theorem onMilli_ofMillis (millis : Int) : (ofMillis millis).OnMilli :=
  congrArg ofMillis (toMillis_ofMillis millis).symm

theorem OnMilli.lt_iff (leftWhole : left.OnMilli) (rightWhole : right.OnMilli) :
    left < right ↔ left.toMillis < right.toMillis := by
  rw [← ofMillis_lt_iff, ← leftWhole, ← rightWhole]

theorem OnMilli.toMillis_inj (leftWhole : left.OnMilli) (rightWhole : right.OnMilli) :
    left.toMillis = right.toMillis ↔ left = right := by
  rw [← ofMillis_injective.eq_iff, ← leftWhole, ← rightWhole]

theorem earlier_ofMillis (millis : Int) (seconds : Nat) :
    (ofMillis millis).earlier seconds = ofMillis (millis - 1000 * seconds) := by
  have noLeap : ¬(perSecond ≤ (ofMillis millis).nano ∧ 0 < seconds) := by
    simp only [ofMillis, perSecond]
    omega
  rw [earlier, if_neg noLeap]
  simp only [ofMillis, mk.injEq]
  omega

/-- For a point of the calendar, a bound that many seconds ago does not mind where time begins. -/
theorem lt_ago_iff (representable : first ≤ time) (now : Timestamp) (seconds : Nat) :
    time < now.ago seconds ↔ time < now.earlier seconds := by
  unfold ago
  split
  · next past =>
    have late : ¬time < now.earlier seconds := not_lt.mpr (past.le.trans representable)
    exact iff_of_false (not_lt.mpr representable) late
  · exact Iff.rfl

end ZonePropagation.Timestamp
