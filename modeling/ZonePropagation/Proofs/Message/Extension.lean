import ZonePropagation.Proofs.Message.RoundTrip
/-!
Messages that are longer than what is read of them.

Every reader looks at octets inside the message only, and what it finds there stays where octets
follow.  So a message is read from whatever begins with its octets.
-/

namespace ZonePropagation

open Octets (Holds)

/-! ### Octets -/

namespace Octets

/-- The longer message has every octet of the shorter one in its place. -/
def Extends (longer message : Octets) : Prop :=
  ∀ (offset : Nat) (octet : UInt8), message[offset]? = some octet → longer[offset]? = some octet

theorem extends_append (message tail : Octets) : Extends (message ++ tail) message := by
  intro offset octet found
  have inside := (Array.getElem?_eq_some_iff.mp found).1
  rwa [Array.getElem?_append_left inside]

variable {longer message : Octets}

theorem Extends.size_le (longerBy : Extends longer message) : message.size ≤ longer.size := by
  by_contra shorter
  have last := longerBy longer.size message[longer.size] (Array.getElem?_eq_getElem (by omega))
  have inside := (Array.getElem?_eq_some_iff.mp last).1
  omega

theorem Extends.holds (longerBy : Extends longer message) {offset : Nat} {part : List UInt8}
    (holds : Holds message offset part) : Holds longer offset part := by
  intro index within
  have here := holds index within
  rw [List.getElem?_eq_getElem within] at here ⊢
  exact longerBy _ _ here

theorem Extends.uint16At? (longerBy : Extends longer message) {offset : Nat} {value : UInt16}
    (found : uint16At? message offset = some value) : uint16At? longer offset = some value :=
  uint16At?_of_holds (longerBy.holds (holds_of_uint16At? found))

theorem Extends.uint32At? (longerBy : Extends longer message) {offset : Nat} {value : UInt32}
    (found : uint32At? message offset = some value) : uint32At? longer offset = some value := by
  simp only [Octets.uint32At?, Option.bind_eq_bind, Option.bind_eq_some_iff] at found ⊢
  obtain ⟨first, atFirst, second, atSecond, third, atThird, fourth, atFourth, made⟩ := found
  exact ⟨first, longerBy _ _ atFirst, second, longerBy _ _ atSecond, third, longerBy _ _ atThird,
    fourth, longerBy _ _ atFourth, made⟩

theorem Extends.extract (longerBy : Extends longer message) {start stop : Nat}
    (inside : stop ≤ message.size) : longer.extract start stop = message.extract start stop := by
  have within := longerBy.size_le
  apply Array.ext_getElem?
  intro index
  rw [Array.getElem?_extract, Array.getElem?_extract, Nat.min_eq_left inside,
    Nat.min_eq_left (inside.trans within)]
  split
  · next there =>
    have here : start + index < message.size := by omega
    rw [Array.getElem?_eq_getElem here]
    exact longerBy _ _ (Array.getElem?_eq_getElem here)
  · rfl

end Octets

open Octets (Extends)

variable {longer message : Octets}

/-! ### Parts -/

theorem Name.Spells.extended (longerBy : Extends longer message) {position used next : Nat}
    {labels : List String} (spelled : Spells message position labels used next) :
    Spells longer position labels used next := by
  induction spelled with
  | root closed => exact .root (longerBy _ _ closed)
  | label size nonempty short filled holds rest ih =>
    exact .label (longerBy _ _ size) nonempty short filled (longerBy.holds holds) ih
  | pointer upper flagged lower target ih =>
    exact .pointer (longerBy _ _ upper) flagged (longerBy _ _ lower) ih

theorem Name.read_extended (longerBy : Extends longer message) {position next : Nat}
    {labels : List String} (found : Name.read message position = .ok (labels, next)) :
    Name.read longer position = .ok (labels, next) := by
  obtain ⟨used, few, spelled, fits⟩ := Name.read_eq_ok_iff.mp found
  exact Name.read_eq_ok_iff.mpr ⟨used, few, spelled.extended longerBy, fits⟩

theorem readUInt16_eq_ok_iff {offset : Nat} {value : UInt16} :
    readUInt16 message offset = .ok value ↔ Octets.uint16At? message offset = some value := by
  unfold readUInt16
  cases Octets.uint16At? message offset <;> simp

theorem readUInt32_eq_ok_iff {offset : Nat} {value : UInt32} :
    readUInt32 message offset = .ok value ↔ Octets.uint32At? message offset = some value := by
  unfold readUInt32
  cases Octets.uint32At? message offset <;> simp

theorem readUInt16_extended (longerBy : Extends longer message) {offset : Nat} {value : UInt16}
    (found : readUInt16 message offset = .ok value) : readUInt16 longer offset = .ok value :=
  readUInt16_eq_ok_iff.mpr (longerBy.uint16At? (readUInt16_eq_ok_iff.mp found))

theorem readUInt32_extended (longerBy : Extends longer message) {offset : Nat} {value : UInt32}
    (found : readUInt32 message offset = .ok value) : readUInt32 longer offset = .ok value :=
  readUInt32_eq_ok_iff.mpr (longerBy.uint32At? (readUInt32_eq_ok_iff.mp found))

theorem Header.read_extended (longerBy : Extends longer message) {offset next : Nat}
    {header : Header} (found : Header.read message offset = .ok (header, next)) :
    Header.read longer offset = .ok (header, next) := by
  obtain ⟨narrow, holds, rfl⟩ := Header.holds_of_read found
  exact Header.recovers_spelling narrow longer offset (longerBy.holds holds)

theorem Question.read_extended (longerBy : Extends longer message) {offset next : Nat}
    {question : Question} (found : Question.read message offset = .ok (question, next)) :
    Question.read longer offset = .ok (question, next) := by
  obtain ⟨after, name, type, recordClass, rfl⟩ := Question.read_eq_ok_iff.mp found
  exact Question.read_eq_ok_iff.mpr ⟨after, Name.read_extended longerBy name,
    readUInt16_extended longerBy type, readUInt16_extended longerBy recordClass, rfl⟩

theorem Authority.read_extended (longerBy : Extends longer message) {offset next : Nat}
    {authority : Authority} (found : Authority.read message offset = .ok (authority, next)) :
    Authority.read longer offset = .ok (authority, next) := by
  obtain ⟨between, after, first, second, serial, refresh, retry, expire, minimum, rfl⟩ :=
    Authority.read_eq_ok_iff.mp found
  exact Authority.read_eq_ok_iff.mpr ⟨between, after, Name.read_extended longerBy first,
    Name.read_extended longerBy second, readUInt32_extended longerBy serial,
    readUInt32_extended longerBy refresh, readUInt32_extended longerBy retry,
    readUInt32_extended longerBy expire, readUInt32_extended longerBy minimum, rfl⟩

/-- Data that end inside the message are the same in a longer one. -/
theorem RecordData.read_extended (longerBy : Extends longer message) {type : RecordType}
    {start stop : Nat} {data : RecordData} (inside : stop ≤ message.size)
    (found : RecordData.read message type start stop = .ok data) :
    RecordData.read longer type start stop = .ok data := by
  unfold RecordData.read at found ⊢
  split at found
  · next isSoa =>
    obtain ⟨⟨authority, consumed⟩, atStart, rest⟩ := bind_eq_ok_iff.mp found
    rw [if_pos isSoa, Authority.read_extended longerBy atStart]
    exact rest
  · next other =>
    rw [if_neg other, longerBy.extract inside]
    exact found

theorem ResourceRecord.read_extended (longerBy : Extends longer message) {offset next : Nat}
    {record : ResourceRecord} (found : ResourceRecord.read message offset = .ok (record, next)) :
    ResourceRecord.read longer offset = .ok (record, next) := by
  obtain ⟨after, length, name, type, recordClass, ttl, atLength, rfl, inside, data⟩ :=
    ResourceRecord.read_eq_ok_iff.mp found
  exact ResourceRecord.read_eq_ok_iff.mpr ⟨after, length, Name.read_extended longerBy name,
    readUInt16_extended longerBy type, readUInt16_extended longerBy recordClass,
    readUInt32_extended longerBy ttl, readUInt16_extended longerBy atLength, rfl,
    inside.trans longerBy.size_le, RecordData.read_extended longerBy inside data⟩

/-! ### Sections and messages -/

theorem readMany_extended {α : Type} {read : Octets → Nat → Except MessageError (α × Nat)}
    (each : ∀ offset part next, read message offset = .ok (part, next) →
      read longer offset = .ok (part, next)) {count offset next : Nat} {done parts : List α}
    (found : readMany (read message) count offset done = .ok (parts, next)) :
    readMany (read longer) count offset done = .ok (parts, next) := by
  induction count generalizing offset done with
  | zero => exact found
  | succ count ih =>
    rw [readMany] at found ⊢
    split at found
    · cases found
    · next part stop first =>
      rw [each offset part stop first]
      exact ih found

theorem Message.read_extended (longerBy : Extends longer message) {found : Message}
    (accepted : Message.read message = .ok found) : Message.read longer = .ok found := by
  have eachQuestion (offset : Nat) (question : Question) (next : Nat)
      (here : readQuestion message offset = .ok (question, next)) :
      readQuestion longer offset = .ok (question, next) :=
    mapError_eq_ok_iff.mpr (Question.read_extended longerBy (mapError_eq_ok_iff.mp here))
  have eachRecord (invalid : MessageError) (offset : Nat) (record : ResourceRecord) (next : Nat)
      (here : readRecord invalid message offset = .ok (record, next)) :
      readRecord invalid longer offset = .ok (record, next) :=
    mapError_eq_ok_iff.mpr (ResourceRecord.read_extended longerBy (mapError_eq_ok_iff.mp here))
  obtain ⟨first, second, third, fourth, last, header, questions, answers, authorities,
    additionals⟩ := Message.read_eq_ok_iff.mp accepted
  exact Message.read_eq_ok_iff.mpr ⟨first, second, third, fourth, last,
    Header.read_extended longerBy header, readMany_extended eachQuestion questions,
    readMany_extended (eachRecord .answerSection) answers,
    readMany_extended (eachRecord .authoritySection) authorities,
    readMany_extended (eachRecord .additionalSection) additionals⟩

end ZonePropagation
