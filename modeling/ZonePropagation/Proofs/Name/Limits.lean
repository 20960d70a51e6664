import ZonePropagation.Proofs.Name.Canonical
/-!
How long a name may be.

The writer limits each label, and the reader the labels of a name together.  So a written name is
read back exactly when it has at most 256 octets, and a longer one is refused at the first label
that goes beyond them.  What is read never has more than 256 octets in canonical form, however it
was compressed; every list of labels within this limit is read from some message.
-/

namespace ZonePropagation.Name

open Octets (Holds ofText)

variable {message : Octets} {position pointers room next : Nat} {labels : List String}
  {octets : List UInt8}

/-! ### Names that are written -/

theorem length_of_write (written : write labels = .ok octets) :
    octets.length = octetCount (present labels) + 1 := by
  obtain ⟨same, wrote, length⟩ := exists_write (short_of_write written)
  rw [written, Except.ok.injEq] at wrote
  rw [wrote, length]

theorem readRest_of_long (written : write labels = .ok octets)
    (long : room < octetCount (present labels)) (holds : Holds message position octets) :
    readRest message position pointers room = .error .label := by
  induction labels generalizing octets position room with
  | nil => exact absurd long (Nat.not_lt_zero room)
  | cons label labels ih =>
    rcases write_cons_cases written with
      ⟨hidden, wroteRest⟩ | ⟨first, rest, shown, nonempty, short, filled, wroteRest, rfl⟩
    · rw [hidden] at long
      exact ih wroteRest long holds
    · rw [shown, octetCount_cons] at long
      obtain ⟨atFirst, holdsLater⟩ := Octets.holds_cons.mp holds
      obtain ⟨holdsText, holdsRest⟩ := Octets.holds_append.mp holdsLater
      rw [Octets.length_ofText, filled] at holdsRest
      rw [readRest_label atFirst nonempty filled short holdsText]
      split
      · -- This label leaves too little room for the others.
        rw [ih wroteRest (by omega) holdsRest]
        rfl
      · rfl

/-- A written name is read back without its empty labels just if it has at most 256 octets, and is
refused for its labels otherwise. -/
theorem read_back_iff_few_octets (written : write labels = .ok octets) :
    octets.length = octetCount (present labels) + 1 ∧
      (read octets.toArray 0 = .ok (present labels, octets.length) ↔ octets.length ≤ 256) ∧
      (256 < octets.length → read octets.toArray 0 = .error .label) := by
  have length := length_of_write written
  have held := Octets.holds_whole octets
  have refused (long : 256 < octets.length) : read octets.toArray 0 = .error .label :=
    readRest_of_long written (by unfold maxNameOctets; omega) held
  refine ⟨length, ⟨fun found => ?_, fun few => ?_⟩, refused⟩
  · by_contra long
    rw [refused (Nat.lt_of_not_le long)] at found
    cases found
  · simpa using recovers_of_write written (by omega) octets.toArray 0 held

theorem read_back_iff_few_octets_gap :
    let octets : List UInt8 := [3, 110, 115, 49, 7, 101, 120, 97, 109, 112, 108, 101, 0]
    write ["ns1", "", "example"] = .ok octets ∧ octets.length = 13 ∧
      read octets.toArray 0 = .ok (["ns1", "example"], 13) := by
  intro octets
  have written : write ["ns1", "", "example"] = .ok octets := by decide
  exact ⟨written, rfl, (read_back_iff_few_octets written).2.1.mpr (by decide)⟩

def letters (count : Nat) : String := String.ofList (List.replicate count 'a')

/-- Four labels of the greatest length are written, and no reader takes them. -/
theorem long_name_unread : ∃ octets, write (List.replicate 4 (letters 63)) = .ok octets ∧
    octets.length = 257 ∧ read octets.toArray 0 = .error .label := by
  have short : ∀ label ∈ List.replicate 4 (letters 63), label.utf8ByteSize ≤ 63 := by decide +kernel
  obtain ⟨octets, written, length⟩ := exists_write short
  have total : octetCount (present (List.replicate 4 (letters 63))) = 256 := by decide +kernel
  refine ⟨octets, written, by rw [length, total], ?_⟩
  exact readRest_of_long written (by rw [total]; decide) (Octets.holds_whole octets)

/-! ### Names that are read -/

theorem canonicalOctets_of_spells {used : Nat} (spelled : Spells message position labels used next) :
    (canonicalOctets labels).length = octetCount labels + 1 := by
  rw [length_canonicalOctets,
    present_eq_self fun label member => (spelled.labels_short label member).1]

theorem read_iff_of_spells {used : Nat} (spelled : Spells message position labels used next)
    (few : used ≤ 64) :
    read message position = .ok (labels, next) ↔ (canonicalOctets labels).length ≤ 256 := by
  rw [canonicalOctets_of_spells spelled]
  constructor
  · intro accepted
    obtain ⟨-, -, -, fits⟩ := read_eq_ok_iff.mp accepted
    exact Nat.succ_le_succ fits
  · intro fits
    exact read_eq_ok_iff.mpr ⟨used, few, spelled, Nat.le_of_succ_le_succ fits⟩

theorem exists_read_of_canonical
    (short : ∀ label ∈ labels, label.isEmpty = false ∧ label.utf8ByteSize ≤ 63)
    (fits : (canonicalOctets labels).length ≤ 256) :
    ∃ message position next, read message position = .ok (labels, next) := by
  have same := present_eq_self fun label member => (short label member).1
  rw [length_canonicalOctets] at fits
  obtain ⟨octets, written, recovers, -⟩ :=
    recovers_write ⟨fun label member => (short label member).2, Nat.le_of_succ_le_succ fits⟩
  rw [same] at recovers
  exact ⟨octets.toArray, 0, _, recovers octets.toArray 0 (Octets.holds_whole octets)⟩

/-- However a name is spelled, it is read just if its canonical form has at most 256 octets.  These
are within the 255 octets of a name unless its labels take all that the reader allows them.  No
shorter limit holds: every list of short labels within this one is read from some message. -/
theorem decoded_iff_canonical_fits (message : Octets) (position : Nat) (labels : List String)
    (next : Nat) :
    (read message position = .ok (labels, next) ↔ ∃ pointers ≤ 64,
      Spells message position labels pointers next ∧ (canonicalOctets labels).length ≤ 256) ∧
    (read message position = .ok (labels, next) →
      ((canonicalOctets labels).length ≤ 255 ↔ octetCount labels < 255)) ∧
    ((∃ message position next, read message position = .ok (labels, next)) ↔
      (∀ label ∈ labels, label.isEmpty = false ∧ label.utf8ByteSize ≤ 63) ∧
        (canonicalOctets labels).length ≤ 256) := by
  refine ⟨⟨?_, ?_⟩, ?_, ?_, ?_⟩
  · intro accepted
    obtain ⟨used, few, spelled, -⟩ := read_eq_ok_iff.mp accepted
    exact ⟨used, few, spelled, (read_iff_of_spells spelled few).mp accepted⟩
  · rintro ⟨used, few, spelled, fits⟩
    exact (read_iff_of_spells spelled few).mpr fits
  · intro accepted
    obtain ⟨used, -, spelled, -⟩ := read_eq_ok_iff.mp accepted
    rw [canonicalOctets_of_spells spelled]
    exact Nat.succ_le_iff
  · rintro ⟨message, position, next, accepted⟩
    obtain ⟨used, few, spelled, -⟩ := read_eq_ok_iff.mp accepted
    exact ⟨spelled.labels_short, (read_iff_of_spells spelled few).mp accepted⟩
  · rintro ⟨short, fits⟩
    exact exists_read_of_canonical short fits

def fullest : List String := [letters 63, letters 63, letters 63, letters 62]

theorem fullest_name_read : ∃ octets, write fullest = .ok octets ∧
    read octets.toArray 0 = .ok (fullest, 256) ∧ (canonicalOctets fullest).length = 256 := by
  have writable : Writable fullest := by decide +kernel
  have shown : present fullest = fullest := by decide +kernel
  have total : octetCount fullest = 255 := by decide +kernel
  obtain ⟨octets, written, recovers, -⟩ := recovers_write writable
  have length := length_of_write written
  have found := recovers octets.toArray 0 (Octets.holds_whole octets)
  rw [shown, total] at length
  rw [shown, length] at found
  exact ⟨octets, written, found, by rw [length_canonicalOctets, shown, total]⟩

end ZonePropagation.Name
