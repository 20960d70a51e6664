import ZonePropagation.Proofs.Message.Extension
/-!
Where the parts of a message stand.

Every reader gives an offset that is farther on than the one it was given, and not beyond the end of
the message, wherever the pointers of its names lead.  The parts of a section are read one after the
other, each from the offset that the one before it gave; a record ends where its data do.
-/

namespace ZonePropagation

open Octets (Holds)

variable {message : Octets} {offset next : Nat}

/-! ### Offsets -/

/-- Where the reader succeeds, it goes on by at least that many octets, all of them inside. -/
def Advances {α : Type} (width : Nat) (read : Octets → Nat → Except MessageError (α × Nat)) :
    Prop :=
  ∀ message offset value next, read message offset = .ok (value, next) →
    offset + width ≤ next ∧ next ≤ message.size

theorem readUInt16_inside {value : UInt16} (found : readUInt16 message offset = .ok value) :
    offset + 2 ≤ message.size :=
  Octets.inside_of_uint16At? (readUInt16_eq_ok_iff.mp found)

theorem readUInt32_inside {value : UInt32} (found : readUInt32 message offset = .ok value) :
    offset + 4 ≤ message.size :=
  Octets.inside_of_uint32At? (readUInt32_eq_ok_iff.mp found)

theorem Name.Spells.bounds {position pointers : Nat} {labels : List String}
    (spelled : Spells message position labels pointers next) :
    position + 1 ≤ next ∧ next ≤ message.size := by
  induction spelled with
  | root closed =>
      have inside := (Array.getElem?_eq_some_iff.mp closed).1
      exact ⟨Nat.le_refl _, inside⟩
  | label size nonempty short filled spelled rest ih =>
      obtain ⟨farther, inside⟩ := ih
      exact ⟨by omega, inside⟩
  | pointer upper flagged lower target ih =>
      have inside := (Array.getElem?_eq_some_iff.mp lower).1
      exact ⟨Nat.le_succ _, inside⟩

theorem Name.read_advances : Advances 1 Name.read := by
  intro message offset labels next found
  obtain ⟨pointers, -, spelled, -⟩ := Name.read_eq_ok_iff.mp found
  exact spelled.bounds

theorem Header.read_advances : Advances 12 Header.read := by
  intro message offset header next found
  obtain ⟨-, holds, rfl⟩ := Header.holds_of_read found
  have inside := holds.inside (List.ne_nil_of_length_pos (by simp [Header.size]))
  rw [Header.length_spelling] at inside
  exact ⟨Nat.le_refl _, inside⟩

theorem Question.read_advances : Advances 5 Question.read := by
  intro message offset question next found
  obtain ⟨after, name, -, recordClass, rfl⟩ := Question.read_eq_ok_iff.mp found
  obtain ⟨farther, -⟩ := Name.read_advances _ _ _ _ name
  have inside := readUInt16_inside recordClass
  omega

theorem Authority.read_advances : Advances 22 Authority.read := by
  intro message offset authority next found
  obtain ⟨between, after, first, second, -, -, -, -, minimum, rfl⟩ :=
    Authority.read_eq_ok_iff.mp found
  obtain ⟨farther, -⟩ := Name.read_advances _ _ _ _ first
  obtain ⟨fartherStill, -⟩ := Name.read_advances _ _ _ _ second
  have inside := readUInt32_inside minimum
  omega

theorem ResourceRecord.read_advances : Advances 11 ResourceRecord.read := by
  intro message offset record next found
  obtain ⟨after, length, name, -, -, -, -, rfl, inside, -⟩ := ResourceRecord.read_eq_ok_iff.mp found
  obtain ⟨farther, -⟩ := Name.read_advances _ _ _ _ name
  omega

/-! ### Records -/

/-- The record takes the octets from `start` up to `stop`: its name, ten octets, and as many octets
of data as the last two of these announce.  A start of authority is read from all of the data and no
more, wherever its names lead; other data are the octets themselves. -/
def ResourceRecord.Fills (message : Octets) (record : ResourceRecord) (start stop : Nat) : Prop :=
  ∃ (fixed : Nat) (length : UInt16), Name.read message start = .ok (record.labels, fixed) ∧
    Octets.uint16At? message (fixed + 8) = some length ∧ stop = fixed + 10 + length.toNat ∧
    match record.data with
    | .soa authority =>
        record.type = .soa ∧ Authority.read message (fixed + 10) = .ok (authority, stop)
    | .raw octets =>
        record.type ≠ .soa ∧ octets.length = length.toNat ∧ Holds message (fixed + 10) octets

theorem ResourceRecord.fills_of_read {record : ResourceRecord} {start stop : Nat}
    (found : read message start = .ok (record, stop)) : record.Fills message start stop := by
  obtain ⟨fixed, length, name, -, -, -, atLength, rfl, inside, data⟩ := read_eq_ok_iff.mp found
  refine ⟨fixed, length, name, readUInt16_eq_ok_iff.mp atLength, rfl, ?_⟩
  unfold RecordData.read at data
  split at data
  · next isSoa =>
    obtain ⟨⟨authority, consumed⟩, atAuthority, data⟩ := bind_eq_ok_iff.mp data
    dsimp only at data
    split at data
    · next same =>
      subst same
      rw [← Except.ok.inj data]
      exact ⟨isSoa, atAuthority⟩
    · cases data
  · next other =>
    have taken : Octets.slice? message (fixed + 10) length.toNat =
        some (message.extract (fixed + 10) (fixed + 10 + length.toNat)) := if_pos inside
    obtain ⟨holds, size⟩ := Octets.holds_of_slice? taken
    rw [← Except.ok.inj data]
    exact ⟨other, by rw [Array.length_toList, size], holds⟩

/-! ### Sections -/

/-- The parts are read one after the other, from `start` up to `stop`: the first one from `start`,
and each other one from where the one before it ended. -/
inductive Successive {α : Type} (readOne : Nat → Except MessageError (α × Nat)) :
    (start : Nat) → (parts : List α) → (stop : Nat) → Prop where
  | nil {start : Nat} : Successive readOne start [] start
  | cons {start next stop : Nat} {part : α} {parts : List α}
      (here : readOne start = .ok (part, next)) (rest : Successive readOne next parts stop) :
      Successive readOne start (part :: parts) stop

namespace Successive

variable {α : Type} {readOne : Nat → Except MessageError (α × Nat)} {start stop : Nat}
  {parts : List α}

theorem append {middle : Nat} {others : List α} (first : Successive readOne start parts middle)
    (second : Successive readOne middle others stop) :
    Successive readOne start (parts ++ others) stop := by
  induction first with
  | nil => exact second
  | cons here rest ih => exact .cons here (ih second)

theorem imp {readOther : Nat → Except MessageError (α × Nat)}
    (same : ∀ offset result, readOne offset = .ok result → readOther offset = .ok result)
    (successive : Successive readOne start parts stop) : Successive readOther start parts stop := by
  induction successive with
  | nil => exact .nil
  | cons here rest ih => exact .cons (same _ _ here) ih

theorem exists_read (successive : Successive readOne start parts stop) {part : α}
    (member : part ∈ parts) : ∃ offset next, readOne offset = .ok (part, next) := by
  induction successive with
  | nil => cases member
  | cons here rest ih =>
      rcases List.mem_cons.mp member with rfl | later
      · exact ⟨_, _, here⟩
      · exact ih later

theorem bounds {read : Octets → Nat → Except MessageError (α × Nat)} {width : Nat}
    (advances : Advances width read) (inside : start ≤ message.size)
    (successive : Successive (read message) start parts stop) :
    start + width * parts.length ≤ stop ∧ stop ≤ message.size := by
  induction successive with
  | nil => exact ⟨Nat.le_refl _, inside⟩
  | cons here rest ih =>
      obtain ⟨farther, within⟩ := advances _ _ _ _ here
      obtain ⟨wide, last⟩ := ih within
      rw [List.length_cons, Nat.mul_succ]
      omega

end Successive

theorem successive_of_readMany {α : Type} {readOne : Nat → Except MessageError (α × Nat)}
    {count offset stop : Nat} {done parts : List α}
    (found : readMany readOne count offset done = .ok (parts, stop)) :
    ∃ later, parts = done.reverse ++ later ∧ later.length = count ∧
      Successive readOne offset later stop := by
  induction count generalizing offset done with
  | zero =>
      cases found
      exact ⟨[], by simp, rfl, .nil⟩
  | succ count ih =>
      rw [readMany] at found
      split at found
      · cases found
      · next part next here =>
        obtain ⟨later, rfl, length, rest⟩ := ih found
        exact ⟨part :: later, by simp, by rw [List.length_cons, length], .cons here rest⟩

end ZonePropagation
