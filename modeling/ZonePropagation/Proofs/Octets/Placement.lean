import Mathlib
import ZonePropagation.Octets
/-!
Octets inside a received message.

A message holds a part at an offset when the octets of the part stand there one after the other.
Numbers, slices and texts are read where their spellings are held.  A reader recovers a value from
a spelling when it gives the value, and the offset after the spelling, in every message and at
every offset that holds the spelling.
-/

namespace ZonePropagation.Octets

/-! ### Big-endian numbers -/

private theorem shifted_or {low : Nat} (high factor width : Nat) (power : 1 <<< width = factor)
    (fits : low < factor) : high * factor ||| low = high * factor + low := by
  subst power
  rw [Nat.one_shiftLeft] at fits ⊢
  rw [Nat.mul_comm, Nat.two_pow_add_eq_or_of_lt fits]

theorem toNat_toUInt16 (high low : UInt8) :
    (toUInt16 high low).toNat = high.toNat * 256 + low.toNat := by
  have highBound := high.toNat_lt
  have unshifted : high.toNat * 256 % 65536 = high.toNat * 256 := by omega
  calc (toUInt16 high low).toNat
      = high.toNat * 256 % 65536 ||| low.toNat := by simp [toUInt16, Nat.shiftLeft_eq]
    _ = high.toNat * 256 + low.toNat := by rw [unshifted, shifted_or _ 256 8 rfl low.toNat_lt]

theorem toNat_toUInt32 (first second third fourth : UInt8) :
    (toUInt32 first second third fourth).toNat =
      ((first.toNat * 256 + second.toNat) * 256 + third.toNat) * 256 + fourth.toNat := by
  have firstBound := first.toNat_lt
  have secondBound := second.toNat_lt
  have thirdBound := third.toNat_lt
  have unshifted : first.toNat * 16777216 % 4294967296 = first.toNat * 16777216 := by omega
  have two : first.toNat * 16777216 % 4294967296 ||| second.toNat * 65536 % 4294967296 =
      (first.toNat * 256 + second.toNat) * 65536 := by
    rw [unshifted, shifted_or _ 16777216 24 rfl (by omega)]
    omega
  have three : (first.toNat * 256 + second.toNat) * 65536 ||| third.toNat * 256 % 4294967296 =
      ((first.toNat * 256 + second.toNat) * 256 + third.toNat) * 256 := by
    rw [shifted_or _ 65536 16 rfl (by omega)]
    omega
  calc (toUInt32 first second third fourth).toNat
      = first.toNat * 16777216 % 4294967296 ||| second.toNat * 65536 % 4294967296 |||
          third.toNat * 256 % 4294967296 ||| fourth.toNat := by
        simp [toUInt32, Nat.shiftLeft_eq]
    _ = ((first.toNat * 256 + second.toNat) * 256 + third.toNat) * 256 + fourth.toNat := by
        rw [two, three, shifted_or _ 256 8 rfl fourth.toNat_lt]

theorem toUInt16_octets (value : UInt16) :
    toUInt16 (value >>> 8).toUInt8 value.toUInt8 = value := by
  have bound := value.toNat_lt
  apply UInt16.toNat_inj.mp
  rw [toNat_toUInt16]
  simp [Nat.shiftRight_eq_div_pow]
  omega

theorem toUInt32_octets (value : UInt32) :
    toUInt32 (value >>> 24).toUInt8 (value >>> 16).toUInt8 (value >>> 8).toUInt8 value.toUInt8 =
      value := by
  have bound := value.toNat_lt
  apply UInt32.toNat_inj.mp
  rw [toNat_toUInt32]
  simp [Nat.shiftRight_eq_div_pow]
  omega

theorem ofUInt16_toUInt16 (high low : UInt8) : ofUInt16 (toUInt16 high low) = [high, low] := by
  have highBound := high.toNat_lt
  have lowBound := low.toNat_lt
  have upper : (toUInt16 high low >>> 8).toUInt8 = high := by
    apply UInt8.toNat_inj.mp
    simp [toNat_toUInt16, Nat.shiftRight_eq_div_pow]
    omega
  have lower : (toUInt16 high low).toUInt8 = low := by
    apply UInt8.toNat_inj.mp
    simp [toNat_toUInt16]
  rw [ofUInt16, upper, lower]

@[simp] theorem length_ofUInt16 (value : UInt16) : (ofUInt16 value).length = 2 := rfl

@[simp] theorem length_ofUInt32 (value : UInt32) : (ofUInt32 value).length = 4 := rfl

theorem forall_octet {property : UInt8 → Prop}
    (each : ∀ value : Fin 256, property (UInt8.ofFin value)) (octet : UInt8) : property octet :=
  each octet.toFin

/-! ### Texts -/

/-- An octet string reads as a text exactly when it is the text's spelling. -/
theorem text?_eq_some_iff {octets : Octets} {text : String} :
    text? octets = some text ↔ octets.toList = ofText text := by
  unfold text? String.fromUTF8? ofText String.toUTF8
  constructor
  · intro read
    split at read
    · cases read
      rfl
    · cases read
  · intro spelled
    have same : (⟨octets⟩ : ByteArray) = text.toByteArray := by
      apply ByteArray.ext
      exact Array.toList_inj.mp spelled
    rw [dif_pos (same ▸ text.isValidUTF8)]
    congr 1
    exact String.toByteArray_inj.mp same

@[simp] theorem length_ofText (text : String) : (ofText text).length = text.utf8ByteSize := rfl

/-! ### Parts of a message -/

/-- The message has the octets, one after the other, from the offset on. -/
def Holds (message : Octets) (offset : Nat) (part : List UInt8) : Prop :=
  ∀ index, index < part.length → message[offset + index]? = part[index]?

instance (message : Octets) (offset : Nat) (part : List UInt8) :
    Decidable (Holds message offset part) :=
  inferInstanceAs (Decidable (∀ index, index < part.length →
    message[offset + index]? = part[index]?))

variable {message : Octets} {offset : Nat} {part : List UInt8}

@[simp] theorem holds_nil (message : Octets) (offset : Nat) : Holds message offset [] := by
  intro index inside
  cases inside

theorem holds_cons {octet : UInt8} {rest : List UInt8} :
    Holds message offset (octet :: rest) ↔
      message[offset]? = some octet ∧ Holds message (offset + 1) rest := by
  constructor
  · intro holds
    refine ⟨holds 0 (by simp), fun index inside => ?_⟩
    have later := holds (index + 1) (by simpa using inside)
    rwa [List.getElem?_cons_succ, Nat.add_comm index, ← Nat.add_assoc] at later
  · rintro ⟨first, others⟩ index inside
    cases index with
    | zero => exact first
    | succ index =>
      have later := others index (by simpa using inside)
      rwa [List.getElem?_cons_succ, Nat.add_comm index, ← Nat.add_assoc]

theorem holds_append {first second : List UInt8} :
    Holds message offset (first ++ second) ↔
      Holds message offset first ∧ Holds message (offset + first.length) second := by
  induction first generalizing offset with
  | nil => simp
  | cons octet rest ih =>
    have shifted : offset + 1 + rest.length = offset + (rest.length + 1) := by omega
    rw [List.cons_append, holds_cons, holds_cons, ih, List.length_cons, shifted, and_assoc]

/-- What stands between two parts of a message is held after the first. -/
theorem holds_between (before part after : List UInt8) :
    Holds (before ++ part ++ after).toArray before.length part := by
  intro index inside
  rw [List.getElem?_toArray, List.append_assoc, List.getElem?_append_right (by omega),
    List.getElem?_append_left (by omega), Nat.add_sub_cancel_left]

theorem holds_whole (part : List UInt8) : Holds part.toArray 0 part := by
  simpa using holds_between [] part []

theorem Holds.inside (holds : Holds message offset part) (nonempty : part ≠ []) :
    offset + part.length ≤ message.size := by
  have positive := List.length_pos_iff.mpr nonempty
  have last := holds (part.length - 1) (by omega)
  rw [List.getElem?_eq_getElem (by omega)] at last
  have bound := (Array.getElem?_eq_some_iff.mp last).1
  omega

theorem extract_of_holds (holds : Holds message offset part) :
    message.extract offset (offset + part.length) = part.toArray := by
  apply Array.ext_getElem?
  intro index
  rw [Array.getElem?_extract]
  split
  · next within =>
    rw [holds index (by omega)]
    exact List.getElem?_toArray.symm
  · next outside =>
    refine (Array.getElem?_eq_none ?_).symm
    change part.length ≤ index
    cases part with
    | nil => exact Nat.zero_le index
    | cons octet rest =>
      have inside := holds.inside (by simp)
      omega

theorem take_of_holds (holds : Holds message 0 part) :
    message.toList.take part.length = part := by
  have same := congrArg Array.toList (extract_of_holds holds)
  simpa [Array.toList_extract, List.extract_eq_take_drop] using same

theorem slice?_of_holds (holds : Holds message offset part)
    (inside : offset + part.length ≤ message.size) :
    slice? message offset part.length = some part.toArray := by
  rw [slice?, if_pos inside, extract_of_holds holds]

theorem holds_of_slice? {length : Nat} {octets : Octets}
    (read : slice? message offset length = some octets) :
    Holds message offset octets.toList ∧ octets.size = length := by
  unfold slice? at read
  split at read
  · next inside =>
    cases read
    have size : (message.extract offset (offset + length)).size = length := by
      rw [Array.size_extract]
      omega
    refine ⟨fun index within => ?_, size⟩
    rw [Array.length_toList, size] at within
    rw [Array.getElem?_toList, Array.getElem?_extract, if_pos (by omega)]
  · cases read

theorem uint16At?_of_holds {value : UInt16} (holds : Holds message offset (ofUInt16 value)) :
    uint16At? message offset = some value := by
  obtain ⟨high, low, -⟩ := by simpa only [ofUInt16, holds_cons] using holds
  simp [uint16At?, high, low, toUInt16_octets]

theorem uint32At?_of_holds {value : UInt32} (holds : Holds message offset (ofUInt32 value)) :
    uint32At? message offset = some value := by
  obtain ⟨first, second, third, fourth, -⟩ := by simpa only [ofUInt32, holds_cons] using holds
  simp [uint32At?, first, second, third, fourth, toUInt32_octets]

theorem holds_of_uint16At? {value : UInt16} (read : uint16At? message offset = some value) :
    Holds message offset (ofUInt16 value) := by
  unfold uint16At? at read
  simp only [Option.bind_eq_bind, Option.bind_eq_some_iff, Option.pure_def,
    Option.some.injEq] at read
  obtain ⟨high, atHigh, low, atLow, rfl⟩ := read
  rw [ofUInt16_toUInt16, holds_cons, holds_cons]
  exact ⟨atHigh, atLow, holds_nil _ _⟩

theorem inside_of_uint16At? {value : UInt16} (read : uint16At? message offset = some value) :
    offset + 2 ≤ message.size :=
  (holds_of_uint16At? read).inside (by simp [ofUInt16])

theorem inside_of_uint32At? {value : UInt32} (read : uint32At? message offset = some value) :
    offset + 4 ≤ message.size := by
  simp only [uint32At?, Option.bind_eq_bind, Option.bind_eq_some_iff] at read
  obtain ⟨-, -, -, -, -, -, fourth, atFourth, -⟩ := read
  exact (Array.getElem?_eq_some_iff.mp atFourth).1

end Octets

/-! ### Outcomes -/

section Outcomes

variable {ε α β : Type}

@[simp] theorem ok_bind (value : α) (next : α → Except ε β) :
    (Except.ok value >>= next) = next value := rfl

@[simp] theorem error_bind (error : ε) (next : α → Except ε β) :
    (Except.error error >>= next) = .error error := rfl

/-- Two steps succeed when the first does and the second does with its value. -/
theorem bind_eq_ok_iff {first : Except ε α} {next : α → Except ε β} {result : β} :
    (first >>= next) = .ok result ↔ ∃ value, first = .ok value ∧ next value = .ok result := by
  cases first with
  | error error => simp
  | ok value => simp

theorem mapError_eq_ok_iff {δ : Type} {outcome : Except ε α} {name : ε → δ} {value : α} :
    outcome.mapError name = .ok value ↔ outcome = .ok value := by
  cases outcome with
  | error error => simp [Except.mapError]
  | ok result => simp [Except.mapError]

theorem map_eq_ok_iff {outcome : Except ε α} {change : α → β} {result : β} :
    outcome.map change = .ok result ↔ ∃ value, outcome = .ok value ∧ change value = result := by
  cases outcome with
  | error error => simp [Except.map]
  | ok value => simp [Except.map]

theorem mapM_isError_iff {read : α → Except ε β} {texts : List α} :
    (∃ error, texts.mapM read = .error error) ↔
      ∃ text ∈ texts, ∃ error, read text = .error error := by
  induction texts with
  | nil => simp [pure, Except.pure]
  | cons first rest ih =>
      rw [List.mapM_cons, List.exists_mem_cons_iff, ← ih]
      cases readFirst : read first with
      | error cause => simp
      | ok value =>
          rw [ok_bind]
          cases readRest : rest.mapM read with
          | error cause => simp
          | ok values => simp [pure, Except.pure]

theorem exists_mem_of_mapM_eq_error {read : α → Except ε β} {texts : List α} {error : ε}
    (failed : texts.mapM read = .error error) : ∃ text ∈ texts, read text = .error error := by
  induction texts with
  | nil => cases failed
  | cons first rest ih =>
      rw [List.exists_mem_cons_iff]
      rw [List.mapM_cons] at failed
      cases readFirst : read first with
      | error cause =>
          rw [readFirst, error_bind] at failed
          cases failed
          exact .inl rfl
      | ok value =>
          rw [readFirst, ok_bind] at failed
          cases readRest : rest.mapM read with
          | ok values =>
              rw [readRest] at failed
              cases failed
          | error cause =>
              rw [readRest, error_bind] at failed
              cases failed
              exact .inr (ih readRest)

theorem mem_of_mapM {read : α → Except ε β} {texts : List α} {values : List β}
    (readAll : texts.mapM read = .ok values) (value : β) :
    value ∈ values ↔ ∃ text ∈ texts, read text = .ok value := by
  induction texts generalizing values with
  | nil =>
      cases readAll
      simp
  | cons first rest ih =>
      rw [List.mapM_cons, bind_eq_ok_iff] at readAll
      obtain ⟨here, readFirst, readAll⟩ := readAll
      obtain ⟨others, readRest, readAll⟩ := bind_eq_ok_iff.mp readAll
      cases readAll
      rw [List.mem_cons, ih readRest, List.exists_mem_cons_iff, readFirst, Except.ok.injEq, eq_comm]

theorem exists_of_mapM {read : α → Except ε β} {texts : List α} {values : List β}
    (readAll : texts.mapM read = .ok values) {text : α} (member : text ∈ texts) :
    ∃ value, read text = .ok value := by
  cases here : read text with
  | ok value => exact ⟨value, rfl⟩
  | error cause =>
      obtain ⟨error, failed⟩ := mapM_isError_iff.mpr ⟨text, member, cause, here⟩
      rw [readAll] at failed
      cases failed

theorem length_of_mapM {read : α → Except ε β} {texts : List α} {values : List β}
    (readAll : texts.mapM read = .ok values) : values.length = texts.length := by
  induction texts generalizing values with
  | nil =>
      cases readAll
      rfl
  | cons first rest ih =>
      rw [List.mapM_cons, bind_eq_ok_iff] at readAll
      obtain ⟨value, -, readAll⟩ := readAll
      obtain ⟨others, readRest, readAll⟩ := bind_eq_ok_iff.mp readAll
      cases readAll
      rw [List.length_cons, List.length_cons, ih readRest]

theorem forM_eq_ok_iff {check : α → Except ε Unit} {texts : List α} :
    texts.forM check = .ok () ↔ ∀ text ∈ texts, check text = .ok () := by
  induction texts with
  | nil => simp [pure, Except.pure]
  | cons first rest ih =>
      change (check first >>= fun _ => rest.forM check) = .ok () ↔ _
      rw [bind_eq_ok_iff, List.forall_mem_cons, ← ih]
      constructor
      · rintro ⟨⟨⟩, here, there⟩
        exact ⟨here, there⟩
      · rintro ⟨here, there⟩
        exact ⟨(), here, there⟩

theorem foldlM_concat {step : β → α → Except ε β} {start later : β} {items : List α}
    (made : items.foldlM step start = .ok later) (last : α) :
    (items ++ [last]).foldlM step start = step later last := by
  rw [List.foldlM_append, made, ok_bind, List.foldlM_cons]
  cases step later last with
  | ok _ => rfl
  | error _ => rfl

end Outcomes

/-! ### Recovery -/

/-- Wherever a message holds the spelling, the reader gives the value and the offset after it. -/
def Octets.Recovers {ε α : Type} (read : Octets → Nat → Except ε (α × Nat))
    (spelling : List UInt8) (value : α) : Prop :=
  ∀ message offset, Holds message offset spelling →
    read message offset = .ok (value, offset + spelling.length)

end ZonePropagation
