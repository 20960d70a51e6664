import Mathlib
import ZonePropagation.Proofs.Octets.Placement
import ZonePropagation.Proofs.Time.Range
import ZonePropagation.Status.Encoding
/-!
Records in their binary form.

Every part of a record delimits itself: its reader gives back what was written, leaves whatever
follows, and gives nothing when the part is cut off.  Parts that delimit themselves do so one after
the other as well; so a record needs no separators, and none of its beginnings passes for a record.
-/

namespace ZonePropagation

namespace Status.Encoding

/-! ### Parts that delimit themselves -/

/-- The reader takes the value from what was written, whatever follows, and from no less. -/
structure Delimits {α : Type} (read? : List UInt8 → Option (α × List UInt8))
    (written : List UInt8) (value : α) : Prop where
  whole : ∀ rest, read? (written ++ rest) = some (value, rest)
  cut : ∀ part more, written = part ++ more → more ≠ [] → read? part = none

section Delimits

variable {α β : Type} {first : List UInt8 → Option (α × List UInt8)}
  {next : α × List UInt8 → Option (β × List UInt8)} {written more : List UInt8} {value : α}
  {result : β}

theorem delimits_nil (value : α) : Delimits (fun rest => some (value, rest)) [] value where
  whole := fun _rest => rfl
  cut := fun _part _more split missing =>
    absurd (List.append_eq_nil_iff.mp split.symm).2 missing

/-- One part after another: what is cut off was cut inside the first, or after it inside the
second. -/
theorem Delimits.bind (head : Delimits first written value)
    (tail : Delimits (fun rest => next (value, rest)) more result) :
    Delimits (fun octets => first octets >>= next) (written ++ more) result where
  whole := by
    intro rest
    rw [List.append_assoc, head.whole]
    exact tail.whole rest
  cut := by
    intro part missing split nonempty
    rcases List.append_eq_append_iff.mp split with ⟨begun, rfl, rest⟩ | ⟨begun, whole, rfl⟩
    · rw [head.whole]
      exact tail.cut begun missing rest nonempty
    · cases begun with
      | nil =>
          rw [List.append_nil] at whole
          rw [← whole, ← List.append_nil written, head.whole]
          exact tail.cut [] more rfl nonempty
      | cons octet begun =>
          rw [head.cut part (octet :: begun) whole (List.cons_ne_nil octet begun)]
          rfl

theorem Delimits.map (head : Delimits first written value) (change : α → β) :
    Delimits (fun octets => (first octets).map fun read => (change read.1, read.2)) written
      (change value) where
  whole := by
    intro rest
    rw [head.whole]
    rfl
  cut := by
    intro part missing split nonempty
    rw [head.cut part missing split nonempty]
    rfl

theorem Delimits.marked {read? : List UInt8 → Option (α × List UInt8)} {mark : UInt8}
    (inner : Delimits first written value) (empty : read? [] = none)
    (opens : ∀ rest, read? (mark :: rest) = first rest) :
    Delimits read? (mark :: written) value where
  whole := by
    intro rest
    rw [List.cons_append, opens]
    exact inner.whole rest
  cut := by
    intro part missing split nonempty
    cases part with
    | nil => exact empty
    | cons octet part =>
        obtain ⟨rfl, behind⟩ := List.cons_eq_cons.mp split
        rw [opens]
        exact inner.cut part missing behind nonempty

end Delimits

/-! ### Numbers -/

theorem length_littleEndian (width value : Nat) : (littleEndian width value).length = width := by
  induction width generalizing value with
  | zero => rfl
  | succ width ih => rw [littleEndian, List.length_cons, ih]

theorem ofLittleEndian_littleEndian {width value : Nat} (fits : value < 256 ^ width) :
    ofLittleEndian (littleEndian width value) = value := by
  induction width generalizing value with
  | zero =>
      rw [pow_zero] at fits
      rw [littleEndian, ofLittleEndian]
      omega
  | succ width ih =>
      rw [pow_succ] at fits
      have low : value.toUInt8.toNat = value % 256 := by simp
      rw [littleEndian, ofLittleEndian, ih (by omega), low]
      omega

theorem take_delimits (octets : List UInt8) : Delimits (take? octets.length) octets octets where
  whole := by
    intro rest
    simp [take?]
  cut := by
    intro part missing split nonempty
    have shorter := List.length_pos_iff.mpr nonempty
    rw [split, take?, List.length_append, if_neg (by omega)]

theorem width_delimits {width value : Nat} (fits : value < 256 ^ width) :
    Delimits (readWidth? width) (littleEndian width value) value := by
  have taken := (take_delimits (littleEndian width value)).map ofLittleEndian
  rw [length_littleEndian, ofLittleEndian_littleEndian fits] at taken
  exact taken

theorem nat_delimits {widest value : Nat} (two : 251 ≤ value → 2 ≤ widest)
    (four : 2 ^ 16 ≤ value → 4 ≤ widest) (eight : 2 ^ 32 ≤ value → 8 ≤ widest)
    (fits : value < 2 ^ 64) : Delimits (readNat? widest) (writeNat value) value := by
  unfold writeNat
  split
  · next small =>
      have octet : value.toUInt8.toNat = value := by
        simp
        omega
      have below : value.toUInt8 < 251 := by
        rw [UInt8.lt_iff_toNat_lt, octet]
        exact small
      refine (delimits_nil value).marked rfl fun rest => ?_
      rw [readNat?, if_pos below, octet]
  · next large =>
      have room := two (by omega)
      split
      · next fitsTwo =>
          refine (width_delimits fitsTwo).marked rfl fun rest => ?_
          rw [readNat?, if_neg (by decide), if_pos ⟨rfl, room⟩]
      · next wide =>
          have room := four (not_lt.mp wide)
          split
          · next fitsFour =>
              refine (width_delimits fitsFour).marked rfl fun rest => ?_
              rw [readNat?, if_neg (by decide), if_neg (by simp), if_pos ⟨rfl, room⟩]
          · next wider =>
              have room := eight (not_lt.mp wider)
              refine (width_delimits fits).marked rfl fun rest => ?_
              rw [readNat?, if_neg (by decide), if_neg (by simp), if_neg (by simp),
                if_pos ⟨rfl, room⟩]

/-! ### Texts, indices and serials -/

theorem text_delimits {text : String} (short : text.utf8ByteSize < 2 ^ 64) :
    Delimits readText? (writeText text) text := by
  have spelled : Octets.text? (Octets.ofText text).toArray = some text :=
    Octets.text?_eq_some_iff.mpr rfl
  have length : Delimits (readNat? 8) (writeNat text.utf8ByteSize) text.utf8ByteSize :=
    nat_delimits (by omega) (by omega) (by omega) short
  have octets := take_delimits (Octets.ofText text)
  rw [Octets.length_ofText] at octets
  unfold writeText
  refine length.bind ?_
  rw [← List.append_nil (Octets.ofText text)]
  refine octets.bind ?_
  simp only [spelled]
  exact delimits_nil text

theorem index_delimits {α : Type} [DecidableEq α] {all : List α} {value : α}
    (listed : value ∈ all) (few : all.length ≤ 251) :
    Delimits (readIndex? all) (writeIndex all value) value := by
  have inside := List.idxOf_lt_length_of_mem listed
  have index : Delimits (readNat? 4) (writeNat (all.idxOf value)) (all.idxOf value) :=
    nat_delimits (by omega) (by omega) (by omega) (by omega)
  unfold writeIndex
  rw [← List.append_nil (writeNat _)]
  refine index.bind ?_
  simp only [List.getElem?_idxOf listed]
  exact delimits_nil value

theorem serial_delimits (serial : Option UInt32) :
    Delimits readSerial? (writeSerial serial) serial := by
  cases serial with
  | none => exact (delimits_nil none).marked rfl fun rest => rfl
  | some serial =>
      have bound := serial.toNat_lt
      have number : Delimits (readNat? 4) (writeNat serial.toNat) serial.toNat :=
        nat_delimits (by omega) (by omega) (by omega) (by omega)
      have read := number.map fun value => some value.toUInt32
      rw [Nat.toUInt32_eq, UInt32.ofNat_toNat] at read
      exact read.marked rfl fun rest => rfl

/-! ### Records -/

structure Fits (record : StatusRecord) : Prop where
  zoneId : record.zoneId.utf8ByteSize < 2 ^ 64
  host : record.nameserver.host.utf8ByteSize < 2 ^ 64

theorem utf8ByteSize_le (text : String) : text.utf8ByteSize ≤ 4 * text.length := by
  have each (characters : List Char) : String.utf8Len characters ≤ 4 * characters.length := by
    induction characters with
    | nil => simp [String.utf8Len]
    | cons first rest ih =>
        have size := first.utf8Size_le_four
        rw [String.utf8Len_cons, List.length_cons]
        omega
  have all := each text.toList
  rwa [← String.utf8ByteSize_ofList, String.ofList_toList, String.length_toList] at all

theorem time_delimits {time : Timestamp} (parses : Timestamp.ofText? time.text = some time) :
    Delimits readText? (writeText time.text) time.text := by
  have short := Timestamp.length_text_le (Timestamp.inRange_of_ofText? parses)
  have size := utf8ByteSize_le time.text
  exact text_delimits (by omega)

theorem port_delimits (port : UInt16) : Delimits (readNat? 2) (writeNat port.toNat) port.toNat := by
  have bound := port.toNat_lt
  exact nat_delimits (by omega) (by omega) (by omega) (by omega)

theorem record_delimits {record : StatusRecord} (fits : Fits record)
    (parses : Timestamp.ofText? record.updatedAt.text = some record.updatedAt) :
    Delimits read? (write record) record := by
  have action : record.action ∈ ZoneAction.all := by cases record.action <;> decide
  have status : record.status ∈ Status.all := by cases record.status <;> decide
  unfold write writeUntimed
  simp only [List.append_assoc]
  refine (text_delimits fits.zoneId).bind ?_
  refine (index_delimits action (by decide)).bind ?_
  refine (text_delimits fits.host).bind ?_
  refine (port_delimits record.nameserver.port).bind ?_
  refine (index_delimits status (by decide)).bind ?_
  refine (serial_delimits record.serial).bind ?_
  rw [← List.append_nil (writeText record.updatedAt.text)]
  refine (time_delimits parses).bind ?_
  simp only [parses, Nat.toUInt16_eq, UInt16.ofNat_toNat]
  exact delimits_nil record

def decode? (octets : List UInt8) : Option (StatusRecord × Nat) :=
  (read? octets).map fun read => (read.1, octets.length - read.2.length)

/-- What is written for a record is decoded as the record and takes just the octets that were
written, whatever follows them; and no shorter beginning of it is decoded as any record. -/
theorem written_record_delimits_itself {record : StatusRecord} (fits : Fits record)
    (parses : Timestamp.ofText? record.updatedAt.text = some record.updatedAt) :
    (∀ tail, decode? (write record ++ tail) = some (record, (write record).length)) ∧
      ∀ part, part <+: write record → part ≠ write record → decode? part = none := by
  have delimits := record_delimits fits parses
  constructor
  · intro tail
    rw [decode?, delimits.whole tail, Option.map_some, List.length_append, Nat.add_sub_cancel]
  · intro part beginning shorter
    obtain ⟨missing, split⟩ := beginning
    have nonempty : missing ≠ [] := by
      intro nothing
      rw [nothing, List.append_nil] at split
      exact shorter split
    rw [decode?, delimits.cut part missing split.symm nonempty, Option.map_none]

theorem written_record_delimits_itself_marked :
    let record : StatusRecord :=
      ⟨"a:b", .delete, ⟨"2001:db8::1", 5353⟩, .success, some 4294967295, ⟨1700000005, 0⟩⟩
    Timestamp.ofText? record.updatedAt.text = some record.updatedAt ∧
      decode? (write record ++ [255, 0]) = some (record, 48) ∧
      decode? ((write record).take 47) = none := by
  intro record
  have parses : Timestamp.ofText? record.updatedAt.text = some record.updatedAt := by
    decide +kernel
  have fits : Fits record := ⟨by decide +kernel, by decide +kernel⟩
  have length : (write record).length = 48 := by decide +kernel
  obtain ⟨whole, cut⟩ := written_record_delimits_itself fits parses
  refine ⟨parses, length ▸ whole [255, 0], cut _ (List.take_prefix 47 _) fun same => ?_⟩
  have shorter := congrArg List.length same
  rw [List.length_take, length] at shorter
  omega

end Status.Encoding

end ZonePropagation
