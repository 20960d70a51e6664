import ZonePropagation.Name.Wire
import ZonePropagation.Proofs.Octets.Placement
/-!
How names are spelled in messages.

A name is spelled at a position by a zero octet, by a label and the rest of the name after it, or
by a pointer to a position that spells the name.  The reader accepts exactly the names that are
spelled with few enough pointers and octets, and gives their labels.  The position after a name is
that after its zero octet or its first pointer where it is laid out.
-/

namespace ZonePropagation.Name

open Octets (Holds Recovers forall_octet ofText)

def octetCount : List String → Nat
  | [] => 0
  | label :: labels => label.utf8ByteSize + 1 + octetCount labels

@[simp] theorem octetCount_nil : octetCount [] = 0 := rfl

@[simp] theorem octetCount_cons (label : String) (labels : List String) :
    octetCount (label :: labels) = label.utf8ByteSize + 1 + octetCount labels := rfl

/-- The name that the message spells at a position: its labels, the number of pointers through
which it goes, and the position after it. -/
inductive Spells (message : Octets) :
    (position : Nat) → (labels : List String) → (pointers next : Nat) → Prop where
  | root {position : Nat} (closed : message[position]? = some 0) :
      Spells message position [] 0 (position + 1)
  | label {position pointers next : Nat} {first : UInt8} {label : String} {labels : List String}
      (size : message[position]? = some first)
      (nonempty : 1 ≤ first.toNat) (short : first.toNat ≤ 63)
      (filled : label.utf8ByteSize = first.toNat)
      (spelled : Holds message (position + 1) (ofText label))
      (rest : Spells message (position + 1 + first.toNat) labels pointers next) :
      Spells message position (label :: labels) pointers next
  | pointer {position pointers elsewhere : Nat} {high low : UInt8} {labels : List String}
      (upper : message[position]? = some high) (flagged : 192 ≤ high.toNat)
      (lower : message[position + 1]? = some low)
      (target : Spells message ((high.toNat - 192) * 256 + low.toNat) labels pointers elsewhere) :
      Spells message position labels (pointers + 1) (position + 2)

/-! ### First octets -/

theorem flagged_iff (first : UInt8) : (first &&& 0xC0 == 0xC0) = true ↔ 192 ≤ first.toNat := by
  revert first
  exact forall_octet (by decide +kernel)

theorem unflagged_iff (first : UInt8) : (first &&& 0xC0 != 0) = false ↔ first.toNat ≤ 63 := by
  revert first
  exact forall_octet (by decide +kernel)

theorem plain_of_short {first : UInt8} (short : first.toNat ≤ 63) :
    (first &&& 0xC0 == 0xC0) = false := by
  rw [Bool.eq_false_iff, Ne, flagged_iff]
  omega

theorem pointerTarget_eq (high low : UInt8) (flagged : 192 ≤ high.toNat) :
    pointerTarget high low = (high.toNat - 192) * 256 + low.toNat := by
  have masked : ∀ octet : UInt8, 192 ≤ octet.toNat → (octet &&& 0x3F).toNat = octet.toNat - 192 :=
    forall_octet (by decide +kernel)
  rw [pointerTarget, masked high flagged]

/-! ### Reading -/

variable {message : Octets} {position pointers room next : Nat} {labels : List String}

theorem holds_of_label {first : UInt8} {octets : Octets} {label : String}
    (slice : Octets.slice? message (position + 1) first.toNat = some octets)
    (text : Octets.text? octets = some label) :
    label.utf8ByteSize = first.toNat ∧ Holds message (position + 1) (ofText label) := by
  obtain ⟨holds, length⟩ := Octets.holds_of_slice? slice
  have octetsOf := Octets.text?_eq_some_iff.mp text
  rw [octetsOf] at holds
  refine ⟨?_, holds⟩
  rw [← Octets.length_ofText, ← octetsOf, Array.length_toList, length]

theorem spells_of_readRest (read : readRest message position pointers room = .ok (labels, next)) :
    ∃ used ≤ pointers, Spells message position labels used next ∧ octetCount labels ≤ room := by
  fun_induction readRest message position pointers room generalizing labels next with
  | case5 position room high upper flagged low lower fewer rest elsewhere target ih =>
    cases read
    obtain ⟨used, few, spelled, fits⟩ := ih target
    have top := (flagged_iff high).mp flagged
    rw [pointerTarget_eq high low top] at spelled
    exact ⟨used + 1, by omega, .pointer upper top lower spelled, fits⟩
  | case7 position pointers room first size _ _ empty =>
    cases read
    have zero : first = 0 := UInt8.toNat_inj.mp empty
    exact ⟨0, by omega, .root (zero ▸ size), by simp⟩
  | case11 position pointers room first size _ unflagged nonempty octets slice fits label text rest
      stop later ih =>
    cases read
    obtain ⟨used, few, spelled, restFits⟩ := ih later
    have short := (unflagged_iff first).mp (by simpa using unflagged)
    obtain ⟨filled, holds⟩ := holds_of_label slice text
    refine ⟨used, few, .label size (by omega) short filled holds spelled, ?_⟩
    rw [octetCount_cons]
    omega
  | case1 | case2 | case3 | case4 | case6 | case8 | case9 | case10 | case12 => cases read

theorem readRest_pointer {high low : UInt8} (upper : message[position]? = some high)
    (flagged : 192 ≤ high.toNat) (lower : message[position + 1]? = some low) :
    readRest message position pointers room =
      match pointers with
      | 0 => .error .compressionLoop
      | fewer + 1 =>
          (readRest message ((high.toNat - 192) * 256 + low.toNat) fewer room).map
            fun rest => (rest.1, position + 2) := by
  rw [readRest, upper]
  simp only [(flagged_iff high).mpr flagged, if_true]
  rw [lower]
  cases pointers with
  | zero => rfl
  | succ fewer =>
      dsimp only
      rw [pointerTarget_eq high low flagged]
      cases readRest message ((high.toNat - 192) * 256 + low.toNat) fewer room <;> rfl

theorem readRest_length {first : UInt8} (size : message[position]? = some first)
    (nonempty : 1 ≤ first.toNat) (short : first.toNat ≤ 63) :
    readRest message position pointers room =
      match Octets.slice? message (position + 1) first.toNat with
      | none => .error .truncated
      | some octets =>
          if first.toNat + 1 ≤ room then
            match Octets.text? octets with
            | none => .error .label
            | some label =>
                (readRest message (position + 1 + first.toNat) pointers
                  (room - (first.toNat + 1))).map fun rest => (label :: rest.1, rest.2)
          else .error .label := by
  rw [readRest, size]
  simp only [plain_of_short short, (unflagged_iff first).mpr short, Bool.false_eq_true, if_false]
  rw [dif_neg (by omega)]
  cases Octets.slice? message (position + 1) first.toNat with
  | none => rfl
  | some octets =>
      dsimp only
      split
      · cases Octets.text? octets with
        | none => rfl
        | some label =>
            cases readRest message (position + 1 + first.toNat) pointers
              (room - (first.toNat + 1)) <;> rfl
      · rfl

theorem slice?_label {first : UInt8} {label : String} (nonempty : 1 ≤ first.toNat)
    (filled : label.utf8ByteSize = first.toNat)
    (holds : Holds message (position + 1) (ofText label)) :
    Octets.slice? message (position + 1) first.toNat = some (ofText label).toArray := by
  have sameSize : (ofText label).length = first.toNat := filled
  have notEmpty : ofText label ≠ [] := by
    intro empty
    rw [empty, List.length_nil] at sameSize
    omega
  rw [← sameSize]
  exact Octets.slice?_of_holds holds (holds.inside notEmpty)

theorem readRest_label {first : UInt8} {label : String} (size : message[position]? = some first)
    (nonempty : 1 ≤ first.toNat) (filled : label.utf8ByteSize = first.toNat)
    (short : first.toNat ≤ 63) (holds : Holds message (position + 1) (ofText label)) :
    readRest message position pointers room =
      if first.toNat + 1 ≤ room then
        (readRest message (position + 1 + first.toNat) pointers (room - (first.toNat + 1))).map
          fun rest => (label :: rest.1, rest.2)
      else .error .label := by
  have text : Octets.text? (ofText label).toArray = some label := Octets.text?_eq_some_iff.mpr rfl
  rw [readRest_length size nonempty short, slice?_label nonempty filled holds]
  dsimp only
  rw [text]

theorem readRest_of_spells {used : Nat} (spelled : Spells message position labels used next)
    (few : used ≤ pointers) (fits : octetCount labels ≤ room) :
    readRest message position pointers room = .ok (labels, next) := by
  induction spelled generalizing pointers room with
  | root closed =>
    rw [readRest, closed]
    rfl
  | @label position used next first label labels size nonempty short filled holds rest ih =>
    rw [octetCount_cons] at fits
    rw [readRest_label size nonempty filled short holds, if_pos (by omega), ih few (by omega)]
    rfl
  | @pointer position used elsewhere high low labels upper flagged lower target ih =>
    obtain ⟨fewer, rfl⟩ : ∃ fewer, pointers = fewer + 1 := ⟨pointers - 1, by omega⟩
    rw [readRest_pointer upper flagged lower]
    dsimp only
    rw [ih (by omega) fits]
    rfl

def present (labels : List String) : List String :=
  labels.filter fun label => !label.isEmpty

theorem Spells.labels_short {used : Nat} (spelled : Spells message position labels used next) :
    ∀ label ∈ labels, label.isEmpty = false ∧ label.utf8ByteSize ≤ 63 := by
  induction spelled with
  | root closed => simp
  | @label position used next first label labels size nonempty short filled holds rest ih =>
    intro other member
    rcases List.mem_cons.mp member with rfl | later
    · rw [String.isEmpty, beq_eq_false_iff_ne]
      omega
    · exact ih other later
  | pointer upper flagged lower target ih => exact ih

/-! ### Writing -/

theorem writeLabel_eq_ok_iff {label : String} {octets : List UInt8} :
    writeLabel label = .ok octets ↔
      label.isEmpty = true ∧ octets = [] ∨
        label.isEmpty = false ∧ label.utf8ByteSize ≤ 63 ∧
          octets = label.utf8ByteSize.toUInt8 :: ofText label := by
  unfold writeLabel maxLabelOctets
  split
  · next empty => simp [empty, eq_comm]
  · next nonempty =>
    split
    · next long => simp [nonempty, Nat.not_le.mpr long]
    · next short => simp [nonempty, Nat.not_lt.mp short, eq_comm]

theorem write_eq_ok_iff {octets : List UInt8} :
    write labels = .ok octets ↔
      ∃ written, labels.mapM writeLabel = .ok written ∧ octets = written.flatten ++ [0] := by
  rw [write, bind_eq_ok_iff]
  simp only [pure, Except.pure, Except.ok.injEq, eq_comm]

theorem write_cons_eq_ok_iff {label : String} {octets : List UInt8} :
    write (label :: labels) = .ok octets ↔
      ∃ first rest, writeLabel label = .ok first ∧ write labels = .ok rest ∧
        octets = first ++ rest := by
  constructor
  · intro written
    obtain ⟨pieces, mapped, rfl⟩ := write_eq_ok_iff.mp written
    rw [List.mapM_cons, bind_eq_ok_iff] at mapped
    obtain ⟨first, wroteFirst, others⟩ := mapped
    obtain ⟨rest, wroteRest, joined⟩ := bind_eq_ok_iff.mp others
    cases joined
    exact ⟨first, rest.flatten ++ [0], wroteFirst, write_eq_ok_iff.mpr ⟨rest, wroteRest, rfl⟩,
      by simp⟩
  · rintro ⟨first, rest, wroteFirst, written, rfl⟩
    obtain ⟨pieces, wroteRest, rfl⟩ := write_eq_ok_iff.mp written
    rw [write_eq_ok_iff, List.mapM_cons, wroteFirst, wroteRest]
    exact ⟨first :: pieces, rfl, by simp⟩

/-- What is written for a name begins with its first label, unless this is empty and left out. -/
theorem write_cons_cases {label : String} {octets : List UInt8}
    (written : write (label :: labels) = .ok octets) :
    (present (label :: labels) = present labels ∧ write labels = .ok octets) ∨
      ∃ first rest, present (label :: labels) = label :: present labels ∧
        1 ≤ first.toNat ∧ first.toNat ≤ 63 ∧ label.utf8ByteSize = first.toNat ∧
        write labels = .ok rest ∧ octets = first :: (ofText label ++ rest) := by
  obtain ⟨piece, rest, wrotePiece, wroteRest, rfl⟩ := write_cons_eq_ok_iff.mp written
  rcases writeLabel_eq_ok_iff.mp wrotePiece with ⟨empty, rfl⟩ | ⟨nonempty, short, rfl⟩
  · exact .inl ⟨List.filter_cons_of_neg (by simp [empty]), wroteRest⟩
  · have positive : label.utf8ByteSize ≠ 0 := by simpa [String.isEmpty] using nonempty
    have size : label.utf8ByteSize.toUInt8.toNat = label.utf8ByteSize := by
      simp
      omega
    exact .inr ⟨_, rest, List.filter_cons_of_pos (by simp [nonempty]), by omega, by omega,
      size.symm, wroteRest, rfl⟩

/-- A name is written when its labels are short enough; it takes an octet more than they do. -/
theorem exists_write (short : ∀ label ∈ labels, label.utf8ByteSize ≤ 63) :
    ∃ octets, write labels = .ok octets ∧ octets.length = octetCount (present labels) + 1 := by
  induction labels with
  | nil => exact ⟨[0], rfl, rfl⟩
  | cons label labels ih =>
    obtain ⟨rest, written, length⟩ := ih fun other member => short other (.tail _ member)
    cases empty : label.isEmpty with
    | true =>
      have skipped := writeLabel_eq_ok_iff.mpr (.inl ⟨empty, rfl⟩)
      refine ⟨rest, write_cons_eq_ok_iff.mpr ⟨[], rest, skipped, written, rfl⟩, ?_⟩
      rw [length, present, present, List.filter_cons_of_neg (by simp [empty])]
    | false =>
      have piece := writeLabel_eq_ok_iff.mpr (.inr ⟨empty, short label (.head _), rfl⟩)
      refine ⟨_, write_cons_eq_ok_iff.mpr ⟨_, rest, piece, written, rfl⟩, ?_⟩
      rw [present, List.filter_cons_of_pos (by simp [empty]), ← present, octetCount_cons,
        List.length_append, List.length_cons, Octets.length_ofText, length]
      omega

theorem short_of_write {octets : List UInt8} (written : write labels = .ok octets) :
    ∀ label ∈ labels, label.utf8ByteSize ≤ 63 := by
  induction labels generalizing octets with
  | nil => simp
  | cons label labels ih =>
    obtain ⟨first, rest, piece, wroteRest, -⟩ := write_cons_eq_ok_iff.mp written
    intro other member
    rcases List.mem_cons.mp member with rfl | later
    · rcases writeLabel_eq_ok_iff.mp piece with ⟨empty, -⟩ | ⟨-, short, -⟩
      · rw [String.isEmpty_iff.mp empty]
        decide
      · exact short
    · exact ih wroteRest other later

theorem spells_of_write {octets : List UInt8} (written : write labels = .ok octets)
    (holds : Holds message position octets) :
    Spells message position (present labels) 0 (position + octets.length) := by
  induction labels generalizing position octets with
  | nil =>
    cases written
    exact .root (Octets.holds_cons.mp holds).1
  | cons label labels ih =>
    rcases write_cons_cases written with
      ⟨hidden, wroteRest⟩ | ⟨first, rest, shown, nonempty, short, filled, wroteRest, rfl⟩
    · rw [hidden]
      exact ih wroteRest holds
    · obtain ⟨atFirst, holdsLater⟩ := Octets.holds_cons.mp holds
      obtain ⟨holdsText, holdsRest⟩ := Octets.holds_append.mp holdsLater
      rw [Octets.length_ofText, filled] at holdsRest
      have after : position + (first :: (ofText label ++ rest)).length =
          position + 1 + first.toNat + rest.length := by
        rw [List.length_cons, List.length_append, Octets.length_ofText, filled]
        omega
      rw [shown, after]
      exact .label atFirst nonempty short filled holdsText (ih wroteRest holdsRest)

/-! ### The names that are read -/

/-- The labels are short enough to be written and few enough to be read back. -/
def Writable (labels : List String) : Prop :=
  (∀ label ∈ labels, label.utf8ByteSize ≤ 63) ∧ octetCount (present labels) ≤ 255

instance (labels : List String) : Decidable (Writable labels) :=
  inferInstanceAs (Decidable (_ ∧ _))

theorem read_eq_ok_iff : read message position = .ok (labels, next) ↔
    ∃ used ≤ 64, Spells message position labels used next ∧ octetCount labels ≤ 255 := by
  constructor
  · exact spells_of_readRest
  · rintro ⟨used, few, spelled, fits⟩
    exact readRest_of_spells spelled few fits

theorem recovers_of_write {octets : List UInt8} (written : write labels = .ok octets)
    (fits : octetCount (present labels) ≤ 255) : Recovers read octets (present labels) := by
  intro message position holds
  exact read_eq_ok_iff.mpr ⟨0, by omega, spells_of_write written holds, fits⟩

theorem recovers_write (writable : Writable labels) :
    ∃ octets, write labels = .ok octets ∧ Recovers read octets (present labels) ∧
      octets.length ≤ 256 := by
  obtain ⟨octets, written, length⟩ := exists_write writable.1
  have fits := writable.2
  exact ⟨octets, written, recovers_of_write written fits, by omega⟩

theorem present_eq_self (nonempty : ∀ label ∈ labels, label.isEmpty = false) :
    present labels = labels := by
  apply List.filter_eq_self.mpr
  intro label member
  simp [nonempty label member]

theorem present_present (labels : List String) : present (present labels) = present labels := by
  simp [present, List.filter_filter]

theorem writable_of_present {octets : List UInt8} (written : write labels = .ok octets)
    (shown : Writable (present labels)) : Writable labels := by
  refine ⟨short_of_write written, ?_⟩
  rw [← present_present]
  exact shown.2

theorem writable_of_read (accepted : read message position = .ok (labels, next)) :
    Writable labels ∧ present labels = labels := by
  obtain ⟨used, -, spelled, fits⟩ := read_eq_ok_iff.mp accepted
  have same := present_eq_self fun label member => (spelled.labels_short label member).1
  have short := fun label member => (spelled.labels_short label member).2
  exact ⟨⟨short, by rwa [same]⟩, same⟩

/-- A name is read exactly when the message spells it with at most 64 pointers and at most 255
octets of labels.  However it is spelled there, its labels have a spelling without pointers, from
which the same labels are read. -/
theorem read_exactly_spelled (message : Octets) (position : Nat) (labels : List String)
    (next : Nat) :
    (read message position = .ok (labels, next) ↔
      ∃ pointers ≤ 64, Spells message position labels pointers next ∧ octetCount labels ≤ 255) ∧
    (read message position = .ok (labels, next) →
      ∃ octets, write labels = .ok octets ∧ Recovers read octets labels) := by
  refine ⟨read_eq_ok_iff, fun accepted => ?_⟩
  obtain ⟨writable, same⟩ := writable_of_read accepted
  obtain ⟨octets, written, recovers, -⟩ := recovers_write writable
  exact ⟨octets, written, same ▸ recovers⟩

/-- A name whose rest stands elsewhere: `www` before a pointer to `example.com`. -/
theorem read_exactly_spelled_compressed :
    read #[7, 101, 120, 97, 109, 112, 108, 101, 3, 99, 111, 109, 0, 3, 119, 119, 119, 0xC0, 0] 13 =
      .ok (["www", "example", "com"], 19) := by
  refine (read_exactly_spelled _ _ _ _).1.mpr ⟨1, by decide, ?_, by decide⟩
  have com : Spells #[7, 101, 120, 97, 109, 112, 108, 101, 3, 99, 111, 109, 0, 3, 119, 119, 119,
      0xC0, 0] 0 ["example", "com"] 0 13 :=
    .label rfl (by decide) (by decide) (by decide) (by decide)
      (.label rfl (by decide) (by decide) (by decide) (by decide) (.root rfl))
  exact .label rfl (by decide) (by decide) (by decide) (by decide)
    (.pointer rfl (by decide) rfl com)

end ZonePropagation.Name
