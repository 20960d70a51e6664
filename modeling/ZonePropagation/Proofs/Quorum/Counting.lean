import Mathlib.Data.List.Perm.Subperm
import Mathlib.Order.Bounds.Basic
import ZonePropagation.Quorum
/-!
What a verdict depends on: the number of rows that confirm and the number of rows that are
settled, against the least number of confirmations that reaches the threshold.  The identity and
the order of the rows play no part in the result, only in the serial that goes with a success.
-/

namespace ZonePropagation

theorem requiredSuccesses_isLeast (total threshold : Nat) :
    IsLeast {count | total * threshold ≤ 100 * count} (requiredSuccesses total threshold) := by
  unfold requiredSuccesses
  constructor
  · change total * threshold ≤ 100 * ((total * threshold + 99) / 100)
    omega
  · intro count reaches
    change total * threshold ≤ 100 * count at reaches
    omega

namespace Quorum

/-- The row confirms: it is a success that holds the expected serial or a newer one. -/
def confirms (expected : UInt32) (row : StatusRecord) : Bool :=
  row.status == .success && Serial.isAtLeast (row.serial.getD expected) expected

def isSettled (row : StatusRecord) : Bool :=
  row.status != .pending

theorem isSettled_of_confirms {expected : UInt32} {row : StatusRecord}
    (confirming : confirms expected row = true) : isSettled row = true := by
  simp only [confirms, Bool.and_eq_true, beq_iff_eq] at confirming
  simp only [isSettled, confirming.1]
  rfl

theorem confirmed_length (expected : UInt32) (rows : List StatusRecord) :
    (confirmed expected rows).length = rows.countP (confirms expected) := by
  induction rows with
  | nil => rfl
  | cons row rest ih =>
      unfold confirmed at ih ⊢
      by_cases success : row.status = .success
      · by_cases reached : Serial.isAtLeast (row.serial.getD expected) expected = true
        · simp [confirms, success, reached, ih]
        · simp [confirms, success, reached, ih]
      · simp [confirms, success, ih]

theorem settled_eq (rows : List StatusRecord) : settled rows = rows.countP isSettled := rfl

theorem confirming_le_settled (expected : UInt32) (rows : List StatusRecord) :
    rows.countP (confirms expected) ≤ rows.countP isSettled :=
  List.countP_mono_left fun _row _member confirming => isSettled_of_confirms confirming

theorem settled_eq_confirming_add_failed (expected : UInt32) (rows : List StatusRecord) :
    rows.countP isSettled = rows.countP (confirms expected) +
      rows.countP fun row => isSettled row && !confirms expected row := by
  induction rows with
  | nil => rfl
  | cons row rest ih =>
      simp only [List.countP_cons, ih]
      cases confirming : confirms expected row with
      | false =>
          cases isSettled row with
          | false => simp
          | true => simp; omega
      | true =>
          simp [isSettled_of_confirms confirming]
          omega

/-- The result of a verdict by the two counts.  A requirement of zero is met by any rows. -/
theorem evaluate_status (rows : List StatusRecord) (total threshold : Nat) (expected : UInt32) :
    (evaluate rows total threshold expected).status =
      if requiredSuccesses total threshold ≤ rows.countP (confirms expected) then .success
      else if rows.countP (confirms expected) + (total - rows.countP isSettled) <
          requiredSuccesses total threshold then .error
      else .pending := by
  have confirming := confirmed_length expected rows
  have ordered := confirming_le_settled expected rows
  have accounted : rows.countP (confirms expected) +
      (rows.countP isSettled - rows.countP (confirms expected)) = rows.countP isSettled := by
    omega
  simp only [evaluate, confirming, settled_eq, accounted]
  by_cases none : requiredSuccesses total threshold = 0
  · rw [if_pos none, if_pos (by omega)]
    rfl
  · rw [if_neg none]
    by_cases enough : requiredSuccesses total threshold ≤ rows.countP (confirms expected)
    · rw [if_pos enough, if_pos enough]
      rfl
    · rw [if_neg enough, if_neg enough]
      split <;> rfl

theorem evaluate_success_iff (rows : List StatusRecord) (total threshold : Nat)
    (expected : UInt32) :
    (evaluate rows total threshold expected).status = .success ↔
      requiredSuccesses total threshold ≤ rows.countP (confirms expected) := by
  rw [evaluate_status]
  split
  · simp_all
  · split <;> simp_all

theorem evaluate_error_iff (rows : List StatusRecord) (total threshold : Nat)
    (expected : UInt32) :
    (evaluate rows total threshold expected).status = .error ↔
      rows.countP (confirms expected) + (total - rows.countP isSettled) <
        requiredSuccesses total threshold := by
  rw [evaluate_status]
  split
  · constructor
    · intro impossible
      cases impossible
    · intro short
      omega
  · split <;> simp_all

theorem evaluate_pending_iff (rows : List StatusRecord) (total threshold : Nat)
    (expected : UInt32) :
    (evaluate rows total threshold expected).status = .pending ↔
      rows.countP (confirms expected) < requiredSuccesses total threshold ∧
        requiredSuccesses total threshold ≤
          rows.countP (confirms expected) + (total - rows.countP isSettled) := by
  rw [evaluate_status]
  split
  · constructor
    · intro impossible
      cases impossible
    · intro short
      omega
  · split <;> simp_all

theorem evaluate_of_settled {rows : List StatusRecord} {total : Nat}
    (complete : total ≤ rows.countP isSettled) (threshold : Nat) (expected : UInt32) :
    (evaluate rows total threshold expected).status =
      if requiredSuccesses total threshold ≤ rows.countP (confirms expected) then .success
      else .error := by
  rw [evaluate_status]
  by_cases enough : requiredSuccesses total threshold ≤ rows.countP (confirms expected)
  · rw [if_pos enough, if_pos enough]
  · rw [if_neg enough, if_neg enough, if_pos (by omega)]

end Quorum

end ZonePropagation
