import ZonePropagation.Proofs.Message.Reencoding
/-!
The counts of written messages.

The header of a written message announces the entries of its sections modulo 65536, and every entry
is written, however many there are.  So the counts are those of the sections, and the message is
read back, only if no section has more than 65535 entries; of a longer one a reader leaves entries
in the octets.
-/

namespace ZonePropagation

open Octets (Holds)

/-! ### Entries that were written -/

theorem Question.writable_of_normalized {question : Question} {octets : List UInt8}
    (written : question.write = .ok octets) (shown : Name.Writable question.normalized.labels) :
    Name.Writable question.labels := by
  obtain ⟨name, wroteName, -⟩ := bind_eq_ok_iff.mp written
  exact Name.writable_of_present wroteName shown

theorem RecordData.fits_of_normalized {type : RecordType} {data : RecordData}
    {octets : List UInt8} (written : data.write = .ok octets) (shown : data.normalized.Fits type) :
    data.Fits type := by
  cases data with
  | raw octets => exact shown
  | soa authority =>
    obtain ⟨isSoa, mname, rname⟩ := shown
    obtain ⟨first, wroteFirst, written⟩ := bind_eq_ok_iff.mp written
    obtain ⟨second, wroteSecond, -⟩ := bind_eq_ok_iff.mp written
    exact ⟨isSoa, Name.writable_of_present wroteFirst mname,
      Name.writable_of_present wroteSecond rname⟩

theorem ResourceRecord.writable_of_normalized {record : ResourceRecord} {octets : List UInt8}
    (written : record.write = .ok octets) (shown : record.normalized.Writable) :
    record.Writable := by
  obtain ⟨name, data, wroteData, -, wroteName, -⟩ := write_eq_ok_iff.mp written
  exact ⟨Name.writable_of_present wroteName shown.name,
    RecordData.fits_of_normalized wroteData shown.data⟩

/-! ### Counts -/

namespace Message

def sizes (message : Message) : List Nat :=
  [message.questions.length, message.answers.length, message.authorities.length,
    message.additionals.length]

/-- The four counts that a header announces, where the octets have them. -/
def counts? (received : Octets) : Option (List Nat) :=
  [4, 6, 8, 10].mapM fun offset => (Octets.uint16At? received offset).map UInt16.toNat

theorem counts?_of_holds {header : Header} {received : Octets}
    (holds : Holds received 0 header.spelling) :
    counts? received = some [header.qdcount.toNat, header.ancount.toNat, header.nscount.toNat,
      header.arcount.toNat] := by
  obtain ⟨-, -, -, qdcount, ancount, nscount, arcount⟩ := Header.holds_spelling_iff.mp holds
  simp only [Nat.zero_add] at qdcount ancount nscount arcount
  simp [counts?, Octets.uint16At?_of_holds qdcount, Octets.uint16At?_of_holds ancount,
    Octets.uint16At?_of_holds nscount, Octets.uint16At?_of_holds arcount]

theorem counts?_of_read {received : Octets} {message : Message}
    (found : read received = .ok message) : counts? received = some message.sizes := by
  obtain ⟨first, second, third, fourth, last, header, questions, answers, authorities,
    additionals⟩ := read_eq_ok_iff.mp found
  obtain ⟨-, holds, -⟩ := Header.holds_of_read header
  obtain ⟨_, sameQuestions, questionCount, -⟩ := readMany_parts questions
  obtain ⟨_, sameAnswers, answerCount, -⟩ := readMany_parts answers
  obtain ⟨_, sameAuthorities, authorityCount, -⟩ := readMany_parts authorities
  obtain ⟨_, sameAdditionals, additionalCount, -⟩ := readMany_parts additionals
  rw [counts?_of_holds holds, sizes, sameQuestions, sameAnswers, sameAuthorities, sameAdditionals]
  simp [questionCount, answerCount, authorityCount, additionalCount]

theorem holds_countedHeader {message : Message} {octets : List UInt8}
    (written : message.write = .ok octets) :
    Holds octets.toArray 0 message.countedHeader.spelling := by
  obtain ⟨-, questions, answers, authorities, additionals, -, -, -, -, rfl⟩ :=
    write_eq_ok_iff.mp written
  simp only [List.append_assoc]
  exact Octets.holds_between [] _ _

theorem counts?_of_write {message : Message} {octets : List UInt8}
    (written : message.write = .ok octets) :
    counts? octets.toArray = some (message.sizes.map (· % 65536)) := by
  rw [counts?_of_holds (holds_countedHeader written)]
  simp [sizes, countedHeader]

private theorem records_writable {records : List ResourceRecord} {written : List (List UInt8)}
    (wrote : records.mapM ResourceRecord.write = .ok written)
    (shown : ∀ record ∈ records.map ResourceRecord.normalized, record.Writable) :
    ∀ record ∈ records, record.Writable := by
  intro record member
  obtain ⟨octets, wroteRecord⟩ := exists_of_mapM wrote member
  exact ResourceRecord.writable_of_normalized wroteRecord
    (shown record.normalized (List.mem_map_of_mem member))

theorem encodable_of_normalized {message : Message} {octets : List UInt8}
    (written : message.write = .ok octets) (shown : message.normalized.Encodable) :
    message.Encodable := by
  obtain ⟨narrow, questions, answers, authorities, additionals, wroteQuestions, wroteAnswers,
    wroteAuthorities, wroteAdditionals, -⟩ := write_eq_ok_iff.mp written
  have shownRecords := shown.records
  simp only [normalized, List.forall_mem_append] at shownRecords
  refine ⟨narrow, ?_, ?_, ?_, ?_, ?_, ?_⟩
  · intro question member
    obtain ⟨octets, wroteQuestion⟩ := exists_of_mapM wroteQuestions member
    exact Question.writable_of_normalized wroteQuestion
      (shown.questions question.normalized (List.mem_map_of_mem member))
  · simp only [List.forall_mem_append]
    exact ⟨⟨records_writable wroteAnswers shownRecords.1.1,
      records_writable wroteAuthorities shownRecords.1.2⟩,
      records_writable wroteAdditionals shownRecords.2⟩
  · simpa [normalized] using shown.questionCount
  · simpa [normalized] using shown.answerCount
  · simpa [normalized] using shown.authorityCount
  · simpa [normalized] using shown.additionalCount

theorem read_normalized_iff {message : Message} {octets : List UInt8}
    (written : message.write = .ok octets) :
    read octets.toArray = .ok message.normalized ↔ message.Encodable := by
  constructor
  · intro found
    exact encodable_of_normalized written (encodable_of_read found).1
  · intro encodable
    obtain ⟨same, wrote, -, reads⟩ := encodable.exists_write
    rw [written, Except.ok.injEq] at wrote
    subst wrote
    exact reads octets.toArray (Octets.holds_whole octets)

theorem Encodable.read_overfull {message : Message} (encodable : message.Encodable)
    (authorities : message.authorities = []) (additionals : message.additionals = [])
    {more : List ResourceRecord} (writable : ∀ record ∈ more, record.Writable)
    (whole : more.length % 65536 = 0) :
    ∃ octets, write { message with answers := message.answers ++ more } = .ok octets ∧
      read octets.toArray = .ok message.normalized := by
  obtain ⟨octets, written, -, reads⟩ := encodable.exists_write
  obtain ⟨narrow, questions, answers, nothing, nothing', wroteQuestions, wroteAnswers,
    wroteAuthorities, wroteAdditionals, rfl⟩ := write_eq_ok_iff.mp written
  obtain ⟨others, wroteMore, -⟩ := recovers_records .answerSection more writable
  have wroteAll : (message.answers ++ more).mapM ResourceRecord.write = .ok (answers ++ others) := by
    rw [List.mapM_append, wroteAnswers, wroteMore]
    rfl
  have count : (message.answers ++ more).length.toUInt16 = message.answers.length.toUInt16 := by
    apply UInt16.toNat_inj.mp
    simp
    omega
  have sameHeader : countedHeader { message with answers := message.answers ++ more } =
      message.countedHeader := by
    simp only [countedHeader, count]
  have ended : nothing = [] ∧ nothing' = [] := by
    rw [authorities] at wroteAuthorities
    rw [additionals] at wroteAdditionals
    cases wroteAuthorities
    cases wroteAdditionals
    exact ⟨rfl, rfl⟩
  obtain ⟨rfl, rfl⟩ := ended
  refine ⟨_, write_eq_ok_iff.mpr ⟨narrow, questions, answers ++ others, [], [], wroteQuestions,
    wroteAll, wroteAuthorities, wroteAdditionals, rfl⟩, reads _ ?_⟩
  rw [sameHeader]
  simpa using Octets.holds_between []
    (message.countedHeader.spelling ++ questions.flatten ++ answers.flatten) others.flatten

/-- The octets of all entries of a written message follow its header, whose counts are those of the
sections modulo 65536.  So the counts are true just if no section has more than 65535 entries.  A
reader finds as many entries as they say, and the message itself just if it is encodable. -/
theorem counts_true_iff {message : Message} {octets : List UInt8}
    (written : message.write = .ok octets) :
    (∃ questions answers authorities additionals,
        message.questions.mapM Question.write = .ok questions ∧
        message.answers.mapM ResourceRecord.write = .ok answers ∧
        message.authorities.mapM ResourceRecord.write = .ok authorities ∧
        message.additionals.mapM ResourceRecord.write = .ok additionals ∧
        [questions.length, answers.length, authorities.length, additionals.length] =
          message.sizes ∧
        octets.drop 12 = (questions ++ answers ++ authorities ++ additionals).flatten) ∧
      counts? octets.toArray = some (message.sizes.map (· % 65536)) ∧
      (counts? octets.toArray = some message.sizes ↔ ∀ size ∈ message.sizes, size ≤ 65535) ∧
      (∀ found, read octets.toArray = .ok found → found.sizes = message.sizes.map (· % 65536)) ∧
      (read octets.toArray = .ok message.normalized ↔ message.Encodable) := by
  have counted := counts?_of_write written
  refine ⟨?_, counted, ?_, ?_, read_normalized_iff written⟩
  · obtain ⟨-, questions, answers, authorities, additionals, wroteQuestions, wroteAnswers,
      wroteAuthorities, wroteAdditionals, rfl⟩ := write_eq_ok_iff.mp written
    refine ⟨questions, answers, authorities, additionals, wroteQuestions, wroteAnswers,
      wroteAuthorities, wroteAdditionals, ?_, ?_⟩
    · rw [length_of_mapM wroteQuestions, length_of_mapM wroteAnswers,
        length_of_mapM wroteAuthorities, length_of_mapM wroteAdditionals, sizes]
    · simp only [List.append_assoc, List.flatten_append]
      exact List.drop_left' (Header.length_spelling _)
  · have kept : message.sizes.map (· % 65536) = message.sizes.map id ↔ _ := List.map_inj_left
    rw [List.map_id] at kept
    rw [counted, Option.some.injEq, kept]
    refine forall₂_congr fun size _ => ?_
    simp only [id]
    omega
  · intro found reads
    have same := counts?_of_read reads
    rw [counted, Option.some.injEq] at same
    exact same.symm

theorem counts_true_iff_answer :
    let message : Message := {
      header := { id := 9, ancount := 3 }
      questions := [{ labels := ["a"], type := .soa, recordClass := .internet }]
      answers := [{
        labels := [""], type := ⟨1⟩, recordClass := .internet, ttl := 1, data := .raw [10, 0, 0, 1] }] }
    let octets : List UInt8 := [
      0, 9, 0, 0, 0, 1, 0, 1, 0, 0, 0, 0,
      1, 97, 0, 0, 6, 0, 1,
      0, 0, 1, 0, 1, 0, 0, 0, 1, 0, 4, 10, 0, 0, 1]
    message.write = .ok octets ∧ counts? octets.toArray = some message.sizes ∧
      read octets.toArray = .ok message.normalized := by
  intro message octets
  have written : message.write = .ok octets := by decide
  obtain ⟨-, -, counted, -, reads⟩ := counts_true_iff written
  exact ⟨written, counted.mpr (by decide), reads.mpr (by decide)⟩

def crowded : Message where
  header := { id := 1 }
  questions := [{ labels := ["a"], type := .soa, recordClass := .internet }]
  answers := List.replicate 65536
    { labels := [], type := ⟨1⟩, recordClass := .internet, ttl := 0, data := .raw [] }

/-- All answers are written, and the header announces none of them, so that none is read. -/
theorem answers_uncounted :
    ∃ octets found, crowded.write = .ok octets ∧ crowded.sizes = [1, 65536, 0, 0] ∧
      counts? octets.toArray = some [1, 0, 0, 0] ∧ read octets.toArray = .ok found ∧
      found.sizes = [1, 0, 0, 0] := by
  have answered : ∀ record ∈ crowded.answers, record.Writable := by
    intro record member
    rw [List.eq_of_mem_replicate member]
    decide
  have many : crowded.answers.length = 65536 := List.length_replicate
  have asking : Encodable { header := { id := 1 }, questions := crowded.questions } := by decide
  obtain ⟨octets, written, reads⟩ := asking.read_overfull rfl rfl answered (by rw [many])
  exact ⟨octets, _, written, by rw [sizes, many]; rfl, counts?_of_read reads, reads, rfl⟩

end Message

end ZonePropagation
