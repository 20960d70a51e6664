import ZonePropagation.Proofs.Message.TypeText
import ZonePropagation.Registry.Drift
/-!
When a difference from the registry is reported.

Record sets are compared as text.  What they mean is an owner, up to ASCII case and one dot at its
end, and a type, by its code.  The texts of owners agree just if the owners do, but the type of a
stored record stands as an operator wrote it.  So a difference is reported exactly when there is
one, or when the type of a stored record is spelled otherwise than a received type is written.
-/

namespace ZonePropagation

/-! ### What a record means -/

namespace Name

def bare (name : String) : String :=
  let small := name.toList.map Char.toLower
  String.ofList (if small.getLast? = some '.' then small.dropLast else small)

end Name

/-- The set that a record belongs to: its owner up to ASCII case and one dot at the end, and the
code of its type. -/
structure RecordMeaning where
  owner : String
  type : RecordType
deriving DecidableEq, Repr

namespace RecordMeaning

def written (meaning : RecordMeaning) : RecordSet :=
  ⟨meaning.owner ++ ".", meaning.type.text⟩

def compared (meanings : List RecordMeaning) : Finset RecordMeaning :=
  (meanings.filter fun meaning => meaning.type != .soa).toFinset

end RecordMeaning

def StoredRecord.meaning? (record : StoredRecord) : Option RecordMeaning :=
  (RecordType.ofText? record.type).map fun type => ⟨Name.bare record.name, type⟩

/-- The type is spelled as the text of the type that it names, in either case. -/
def StoredRecord.PlainlyTyped (record : StoredRecord) : Prop :=
  ∃ type, RecordType.ofText? record.type = some type ∧ record.type.toUpper = type.text

instance (record : StoredRecord) : Decidable record.PlainlyTyped :=
  decidable_of_iff
    ((RecordType.ofText? record.type).map RecordType.text = some record.type.toUpper)
    (by simp [StoredRecord.PlainlyTyped, eq_comm])

def ResourceRecord.meaning (record : ResourceRecord) : RecordMeaning :=
  ⟨Name.bare record.owner, record.type⟩

/-! ### Owners -/

theorem RecordSet.toList_ownerOf (name : String) :
    (ownerOf name).toList = (Name.bare name).toList ++ ['.'] := by
  have small : name.toLower.toList = name.toList.map Char.toLower := String.toList_map
  unfold ownerOf Name.bare
  dsimp only
  rw [← small]
  by_cases dotted : name.toLower.toList.getLast? = some '.'
  · rw [if_pos (by rwa [Name.endsWith_dot_iff]), if_pos dotted, String.toList_ofList,
      List.dropLast_append_getLast? _ dotted]
  · rw [if_neg (by rwa [Name.endsWith_dot_iff]), if_neg dotted, String.toList_append,
      String.ofList_toList]
    rfl

theorem RecordSet.ownerOf_eq (name : String) : ownerOf name = Name.bare name ++ "." := by
  rw [← String.toList_inj, toList_ownerOf, String.toList_append]
  rfl

theorem RecordSet.ownerOf_text (names : List String) :
    ownerOf (Name.text names) = (Name.text names).toLower := by
  unfold ownerOf
  dsimp only
  rw [if_pos]
  rw [Name.endsWith_dot_iff, String.toLower, String.toList_map, List.getLast?_map,
    Name.getLast?_text]
  rfl

/-! ### Types -/

theorem RecordType.text_eq_soa_iff {type : RecordType} : type.text = "SOA" ↔ type = .soa := by
  have authority : soa.text = "SOA" := by decide +kernel
  rw [← authority, text_injective.eq_iff]

theorem StoredRecord.meaning?_eq {record : StoredRecord} {type : RecordType}
    (named : RecordType.ofText? record.type = some type) :
    record.meaning? = some ⟨Name.bare record.name, type⟩ := by
  rw [meaning?, named]
  rfl

theorem StoredRecord.plainlyTyped_of_spelled {record : StoredRecord} {type : RecordType}
    (understood : (RecordType.ofText? record.type).isSome = true)
    (spelled : record.type.toUpper = type.text) : record.PlainlyTyped := by
  obtain ⟨read, named⟩ := Option.isSome_iff_exists.mp understood
  have same : read = type := by
    rw [← RecordType.ofText?_toUpper, spelled] at named
    exact RecordType.eq_of_ofText?_text named
  exact ⟨read, named, same ▸ spelled⟩

/-! ### Record sets as written -/

theorem RecordMeaning.written_injective : Function.Injective written := by
  intro left right same
  obtain ⟨owners, types⟩ := RecordSet.mk.inj same
  exact congrArg₂ mk ((String.append_left_inj ".").mp owners) (RecordType.text_injective types)

theorem RecordSet.ofReceived_eq (record : ResourceRecord) :
    ofReceived record = record.meaning.written := by
  rw [ofReceived, ← ownerOf_text, ownerOf_eq]
  rfl

theorem RecordSet.ofStored_eq {record : StoredRecord} {type : RecordType}
    (spelled : record.type.toUpper = type.text) :
    ofStored record = RecordMeaning.written ⟨Name.bare record.name, type⟩ := by
  rw [ofStored, ownerOf_eq, spelled]
  rfl

theorem RecordSet.mem_sorted_iff {set : RecordSet} {sets : List RecordSet} :
    set ∈ sorted sets ↔ set ∈ sets := by
  rw [sorted, List.mem_eraseDups, List.mem_mergeSort]

theorem RecordMeaning.mem_compared_iff {meaning : RecordMeaning} {meanings : List RecordMeaning} :
    meaning ∈ compared meanings ↔ meaning ∈ meanings ∧ meaning.type ≠ .soa := by
  rw [compared, List.mem_toFinset, List.mem_filter, bne_iff_ne]

namespace Drift

variable {stored : List StoredRecord} {received : List ResourceRecord}

theorem isNone_between_iff : (between stored received).isNone = true ↔ ∀ set,
    (∃ record ∈ stored, record.type.toUpper ≠ "SOA" ∧ RecordSet.ofStored record = set) ↔
      ∃ record ∈ received, record.type ≠ .soa ∧ RecordSet.ofReceived record = set := by
  have expected (set : RecordSet) :
      set ∈ RecordSet.sorted ((stored.map RecordSet.ofStored).filter fun set => set.type != "SOA") ↔
        ∃ record ∈ stored, record.type.toUpper ≠ "SOA" ∧ RecordSet.ofStored record = set := by
    rw [RecordSet.mem_sorted_iff, List.mem_filter, List.mem_map, bne_iff_ne]
    constructor
    · rintro ⟨⟨record, member, rfl⟩, other⟩
      exact ⟨record, member, other, rfl⟩
    · rintro ⟨record, member, other, rfl⟩
      exact ⟨⟨record, member, rfl⟩, other⟩
  have served (set : RecordSet) :
      set ∈ RecordSet.sorted ((received.filter fun record => record.type != .soa).map
          RecordSet.ofReceived) ↔
        ∃ record ∈ received, record.type ≠ .soa ∧ RecordSet.ofReceived record = set := by
    rw [RecordSet.mem_sorted_iff, List.mem_map]
    simp only [List.mem_filter, bne_iff_ne, and_assoc]
  simp only [← expected, ← served, isNone, between, Bool.and_eq_true, List.isEmpty_iff,
    List.filter_eq_nil_iff, Bool.not_eq_true', Bool.not_eq_false, List.contains_iff_mem]
  exact ⟨fun ⟨kept, known⟩ set => ⟨kept set, known set⟩,
    fun same => ⟨fun set => (same set).mp, fun set => (same set).mpr⟩⟩

theorem exists_stored_iff (plain : ∀ record ∈ stored, record.PlainlyTyped) (set : RecordSet) :
    (∃ record ∈ stored, record.type.toUpper ≠ "SOA" ∧ RecordSet.ofStored record = set) ↔
      set ∈ (RecordMeaning.compared (stored.filterMap StoredRecord.meaning?)).image
        RecordMeaning.written := by
  simp only [Finset.mem_image, RecordMeaning.mem_compared_iff, List.mem_filterMap]
  constructor
  · rintro ⟨record, member, other, rfl⟩
    obtain ⟨type, named, spelled⟩ := plain record member
    rw [spelled, Ne, RecordType.text_eq_soa_iff] at other
    exact ⟨_, ⟨⟨record, member, StoredRecord.meaning?_eq named⟩, other⟩,
      (RecordSet.ofStored_eq spelled).symm⟩
  · rintro ⟨_, ⟨⟨record, member, meant⟩, other⟩, rfl⟩
    obtain ⟨type, named, spelled⟩ := plain record member
    rw [StoredRecord.meaning?_eq named] at meant
    cases meant
    refine ⟨record, member, ?_, RecordSet.ofStored_eq spelled⟩
    rwa [spelled, Ne, RecordType.text_eq_soa_iff]

theorem exists_received_iff (set : RecordSet) :
    (∃ record ∈ received, record.type ≠ .soa ∧ RecordSet.ofReceived record = set) ↔
      set ∈ (RecordMeaning.compared (received.map ResourceRecord.meaning)).image
        RecordMeaning.written := by
  simp only [Finset.mem_image, RecordMeaning.mem_compared_iff, List.mem_map]
  constructor
  · rintro ⟨record, member, other, rfl⟩
    exact ⟨record.meaning, ⟨⟨record, member, rfl⟩, other⟩, (RecordSet.ofReceived_eq record).symm⟩
  · rintro ⟨_, ⟨⟨record, member, rfl⟩, other⟩, rfl⟩
    exact ⟨record, member, other, RecordSet.ofReceived_eq record⟩

theorem plainlyTyped_of_isNone {record : StoredRecord}
    (alike : (between stored received).isNone = true) (member : record ∈ stored)
    (understood : (RecordType.ofText? record.type).isSome = true) : record.PlainlyTyped := by
  by_cases authority : record.type.toUpper = "SOA"
  · exact StoredRecord.plainlyTyped_of_spelled understood
      (authority.trans (RecordType.text_eq_soa_iff.mpr rfl).symm)
  · -- It is written as a received record, the type of which is written as its text.
    obtain ⟨other, -, -, same⟩ :=
      (isNone_between_iff.mp alike (RecordSet.ofStored record)).mp ⟨record, member, authority, rfl⟩
    exact StoredRecord.plainlyTyped_of_spelled understood (congrArg RecordSet.type same).symm

/-- Between plainly spelled types, no difference is reported just if both sides mean the same. -/
theorem isNone_iff_of_plain (plain : ∀ record ∈ stored, record.PlainlyTyped) :
    (between stored received).isNone = true ↔
      RecordMeaning.compared (stored.filterMap StoredRecord.meaning?) =
        RecordMeaning.compared (received.map ResourceRecord.meaning) := by
  rw [isNone_between_iff, ← (Finset.image_injective RecordMeaning.written_injective).eq_iff,
    Finset.ext_iff]
  exact forall_congr' fun set => by rw [exists_stored_iff plain, exists_received_iff]

/-- For stored records whose types are understood, no difference is reported just if both sides
mean the same record sets and every stored type is plainly spelled. -/
theorem absent_iff_plainly_same
    (understood : ∀ record ∈ stored, (RecordType.ofText? record.type).isSome = true) :
    (between stored received).isNone = true ↔
      RecordMeaning.compared (stored.filterMap StoredRecord.meaning?) =
          RecordMeaning.compared (received.map ResourceRecord.meaning) ∧
        ∀ record ∈ stored, record.PlainlyTyped := by
  constructor
  · intro alike
    have plain : ∀ record ∈ stored, record.PlainlyTyped := fun record member =>
      plainlyTyped_of_isNone alike member (understood record member)
    exact ⟨(isNone_iff_of_plain plain).mp alike, plain⟩
  · rintro ⟨same, plain⟩
    exact (isNone_iff_of_plain plain).mpr same

def writtenRecords : List StoredRecord := [
  ⟨"z", "WWW.example.com", "a", "192.0.2.1", none⟩,
  ⟨"z", "example.com.", "Soa", "ns1.example.com.", none⟩,
  ⟨"z", "www.Example.com.", "type65", "1 .", some 300⟩]

def servedRecords : List ResourceRecord := [
  ⟨["example", "com"], .soa, .internet, 300, .soa {}⟩,
  ⟨["www", "example", "com"], ⟨65⟩, .internet, 300, .raw [0, 1, 0]⟩,
  ⟨["www", "example", "com"], .a, .internet, 300, .raw [192, 0, 2, 1]⟩]

theorem absent_iff_plainly_same_cased :
    (∀ record ∈ writtenRecords, (RecordType.ofText? record.type).isSome = true) ∧
      (∀ record ∈ writtenRecords, record.PlainlyTyped) ∧
      (between writtenRecords servedRecords).isNone = true := by
  have understood : ∀ record ∈ writtenRecords,
      (RecordType.ofText? record.type).isSome = true := by decide +kernel
  have plain : ∀ record ∈ writtenRecords, record.PlainlyTyped := by decide +kernel
  refine ⟨understood, plain, (absent_iff_plainly_same understood).mpr ⟨?_, plain⟩⟩
  decide +kernel

def numberedExchanger : StoredRecord :=
  ⟨"z", "example.com.", "TYPE15", "10 mail.example.com.", none⟩

def servedExchanger : ResourceRecord :=
  ⟨["example", "com"], ⟨15⟩, .internet, 300, .raw [0, 10, 192, 12]⟩

/-- A difference is reported between two records that mean the same, as the type of one is written
by its number and that of the other by its mnemonic. -/
theorem numbered_type_reported :
    (∀ record ∈ [numberedExchanger], (RecordType.ofText? record.type).isSome = true) ∧
      RecordMeaning.compared ([numberedExchanger].filterMap StoredRecord.meaning?) =
        RecordMeaning.compared ([servedExchanger].map ResourceRecord.meaning) ∧
      (between [numberedExchanger] [servedExchanger]).isNone = false := by
  have understood : ∀ record ∈ [numberedExchanger],
      (RecordType.ofText? record.type).isSome = true := by decide +kernel
  refine ⟨understood, by decide +kernel, ?_⟩
  rw [Bool.eq_false_iff]
  intro alike
  have plain := plainlyTyped_of_isNone alike (.head _) (understood _ (.head _))
  revert plain
  decide +kernel

end Drift

end ZonePropagation
