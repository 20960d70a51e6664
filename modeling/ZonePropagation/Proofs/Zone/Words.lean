import Mathlib
import ZonePropagation.Zone
/-!
Words and numbers as rows of a table keep them.

The text of an action, a state or a result is read as the word itself; so no two words share a text.
A 32-bit number is read from the 64-bit one that was written for it.
-/

namespace ZonePropagation

theorem ZoneAction.ofText_text (action : ZoneAction) : ofText action.text = .ok action := by
  cases action <;> decide +kernel

theorem Status.ofText_text (status : Status) : ofText status.text = .ok status := by
  cases status <;> decide +kernel

theorem ZoneStatus.ofText_text (status : ZoneStatus) : ofText status.text = .ok status := by
  cases status <;> decide +kernel

theorem ZoneAction.text_injective : Function.Injective ZoneAction.text := by
  intro left right same
  have together := ofText_text left
  rw [same, ofText_text right] at together
  exact (Except.ok.inj together).symm

theorem ZoneStatus.text_injective : Function.Injective ZoneStatus.text := by
  intro left right same
  have together := ofText_text left
  rw [same, ofText_text right] at together
  exact (Except.ok.inj together).symm

theorem low_toNat (value : UInt32) : ((value.toNat : Int) % 4294967296).toNat.toUInt32 = value := by
  have bound := value.toNat_lt
  rw [Int.emod_eq_of_lt (by omega) (by omega), Int.toNat_natCast]
  simp

end ZonePropagation
