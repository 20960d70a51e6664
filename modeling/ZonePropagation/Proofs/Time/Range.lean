import Mathlib
import ZonePropagation.Time.Timestamp
/-!
The range of the calendar.

Every time that is read of a text is in range.  The years of the range have six digits at most, and
all other parts of a text have a width of their own; so the text of a time in range is short.
-/

namespace ZonePropagation

namespace Timestamp

/-! ### The range of times -/

theorem inRange_iff (second : Int) :
    inRange second = true ↔ -8334601228800 ≤ second ∧ second < 8210266876800 := by
  have first : (Calendar.Date.mk firstYear 1 1).toDays * 86400 = -8334601228800 := by
    decide +kernel
  have last : (Calendar.Date.mk (lastYear + 1) 1 1).toDays * 86400 = 8210266876800 := by
    decide +kernel
  unfold inRange
  rw [first, last, Bool.and_eq_true, decide_eq_true_iff, decide_eq_true_iff]

theorem inRange_of_ofText? {text : String} {time : Timestamp} (read : ofText? text = some time) :
    inRange time.second = true := by
  have closing : ∀ {second : Int} {nano : Nat} {ends : Bool},
      (if (ends && inRange second) = true then some ⟨second, nano⟩ else none) = some time →
        inRange time.second = true := by
    intro second nano ends last
    split at last
    · next good =>
        cases last
        exact (Bool.and_eq_true_iff.mp good).2
    · cases last
  unfold ofText? at read
  simp only [Option.bind_eq_bind, Option.bind_eq_some_iff] at read
  obtain ⟨date, -, rest⟩ := read
  split at rest
  case h_4 => cases rest
  all_goals
    simp only [Option.bind_some, Option.bind_eq_some_iff] at rest
    obtain ⟨clock, -, offset, -, last⟩ := rest
    exact closing last

/-! ### Whole milliseconds -/

theorem toMillis_ofMillis (millis : Int) : (ofMillis millis).toMillis = millis := by
  simp only [toMillis, ofMillis]
  omega

theorem isBefore_iff (left right : Timestamp) :
    left.isBefore right = true ↔
      left.second < right.second ∨ left.second = right.second ∧ left.nano < right.nano := by
  simp [isBefore]

theorem isBefore_ofMillis_iff (left right : Int) :
    (ofMillis left).isBefore (ofMillis right) = true ↔ left < right := by
  rw [isBefore_iff]
  simp only [ofMillis]
  omega

/-- A whole number of milliseconds, in the range of the calendar. -/
def IsWhole (time : Timestamp) : Prop :=
  time = ofMillis time.toMillis ∧ inRange time.second = true

instance (time : Timestamp) : Decidable time.IsWhole :=
  inferInstanceAs (Decidable (_ ∧ _))

theorem IsWhole.range {time : Timestamp} (whole : time.IsWhole) :
    -8334601228800000 ≤ time.toMillis ∧ time.toMillis < 8210266876800000 := by
  have spelled := congrArg second whole.1
  have range := (inRange_iff time.second).mp whole.2
  simp only [ofMillis] at spelled
  omega

/-! ### The length of a text -/

/-- The date of a day has few digits, if the day is not too far away. -/
theorem ofDays_bounds {days : Int} (low : -10 ^ 9 < days) (high : days < 10 ^ 9) :
    (Calendar.Date.ofDays days).year.natAbs < 10 ^ 8 ∧
      (Calendar.Date.ofDays days).month < 10 ^ 2 ∧ (Calendar.Date.ofDays days).day < 10 ^ 3 := by
  simp only [Calendar.Date.ofDays]
  refine ⟨?_, ?_, by omega⟩
  · split
    · omega
    · omega
  · split
    · omega
    · omega

theorem length_padded_le {width value most : Nat} (wide : width ≤ most) (some : 0 < most)
    (small : value < 10 ^ most) : (padded width value).length ≤ most := by
  have digits := Nat.toDigits_length 10 value most some small
  simp only [padded, String.length_ofList, List.length_append, List.length_replicate]
  omega

theorem length_yearText_le {year : Int} (near : year.natAbs < 10 ^ 8) :
    (yearText year).length ≤ 9 := by
  unfold yearText
  split
  · have digits := @length_padded_le 4 year.toNat 8 (by omega) (by omega) (by omega)
    omega
  · have digits := @length_padded_le 4 year.natAbs 8 (by omega) (by omega) near
    have sign : (if year < 0 then "-" else "+").length = 1 := by
      split
      · rfl
      · rfl
    rw [String.length_append, sign]
    omega

theorem length_decimals_le {nano : Nat} (less : nano < perSecond) :
    (decimals nano).length ≤ 10 := by
  have less : nano < 10 ^ 9 := less
  have point : ".".length = 1 := rfl
  unfold decimals
  split
  · simp
  · split
    · have digits := @length_padded_le 3 (nano / 1000000) 9 (by omega) (by omega) (by omega)
      rw [String.length_append]
      omega
    · split
      · have digits := @length_padded_le 6 (nano / 1000) 9 (by omega) (by omega) (by omega)
        rw [String.length_append]
        omega
      · have digits := @length_padded_le 9 nano 9 (by omega) (by omega) (by omega)
        rw [String.length_append]
        omega

theorem length_text_le {time : Timestamp} (within : inRange time.second = true) :
    time.text.length ≤ 40 := by
  have range := (inRange_iff time.second).mp within
  obtain ⟨year, month, day⟩ :=
    @ofDays_bounds (time.second / 86400) (by omega) (by omega)
  have year := length_yearText_le year
  have month := @length_padded_le 2 _ 2 (by omega) (by omega) month
  have day := @length_padded_le 2 _ 3 (by omega) (by omega) day
  have hour := @length_padded_le 2 ((time.second % 86400).toNat / 3600) 2 (by omega) (by omega)
    (by omega)
  have minute := @length_padded_le 2 ((time.second % 86400).toNat / 60 % 60) 2 (by omega) (by omega)
    (by omega)
  have shown : (if time.nano < perSecond then (time.second % 86400).toNat % 60
      else (time.second % 86400).toNat % 60 + 1) < 10 ^ 2 := by
    split
    · omega
    · omega
  have second := @length_padded_le 2 _ 2 (by omega) (by omega) shown
  have decimals := length_decimals_le (Nat.mod_lt time.nano (show 0 < perSecond by decide))
  have marks : "-".length = 1 ∧ "T".length = 1 ∧ ":".length = 1 ∧ "Z".length = 1 :=
    ⟨rfl, rfl, rfl, rfl⟩
  simp only [text, String.length_append]
  omega

end Timestamp

end ZonePropagation
