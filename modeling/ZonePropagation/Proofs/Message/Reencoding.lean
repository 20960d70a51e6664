import ZonePropagation.Proofs.Message.Succession
/-!
Received messages are written without loss.

Whatever is read as a message is within the limits of the octet form, however its names were
compressed and whatever stands after it.  Writing it gives octets from which the same message is
read, and these begin with the twelve octets of the received header.
-/

namespace ZonePropagation

open Octets (Holds)

theorem readMany_parts {α : Type} {readOne : Nat → Except MessageError (α × Nat)}
    {count offset next : Nat} {done parts : List α}
    (found : readMany readOne count offset done = .ok (parts, next)) :
    ∃ later, parts = done.reverse ++ later ∧ later.length = count ∧
      ∀ part ∈ later, ∃ start stop, readOne start = .ok (part, stop) := by
  obtain ⟨later, same, length, successive⟩ := successive_of_readMany found
  exact ⟨later, same, length, fun part member => successive.exists_read member⟩

theorem Question.writable_of_read {message : Octets} {offset next : Nat} {question : Question}
    (found : read message offset = .ok (question, next)) :
    Name.Writable question.labels ∧ question.normalized = question := by
  obtain ⟨after, name, -⟩ := read_eq_ok_iff.mp found
  obtain ⟨writable, same⟩ := Name.writable_of_read name
  exact ⟨writable, by rw [normalized, same]⟩

theorem Authority.writable_of_read {message : Octets} {offset next : Nat} {authority : Authority}
    (found : read message offset = .ok (authority, next)) :
    Name.Writable authority.mname ∧ Name.Writable authority.rname ∧
      authority.normalized = authority := by
  obtain ⟨between, after, first, second, -⟩ := read_eq_ok_iff.mp found
  obtain ⟨mname, sameFirst⟩ := Name.writable_of_read first
  obtain ⟨rname, sameSecond⟩ := Name.writable_of_read second
  exact ⟨mname, rname, by rw [normalized, sameFirst, sameSecond]⟩

theorem RecordData.fits_of_read {message : Octets} {type : RecordType} {start stop : Nat}
    {data : RecordData} (found : read message type start stop = .ok data)
    (short : stop ≤ start + 65535) : data.Fits type ∧ data.normalized = data := by
  unfold read at found
  split at found
  · next isSoa =>
    -- The names may have been compressed, so that their written form can be longer than the data
    -- that were received; it is the limits on names that keep it short.
    obtain ⟨⟨authority, consumed⟩, atAuthority, found⟩ := bind_eq_ok_iff.mp found
    dsimp only at found
    split at found
    · cases found
      obtain ⟨mname, rname, same⟩ := Authority.writable_of_read atAuthority
      exact ⟨⟨isSoa, mname, rname⟩, by rw [normalized, same]⟩
    · cases found
  · next other =>
    cases found
    refine ⟨⟨other, ?_⟩, rfl⟩
    rw [Array.length_toList, Array.size_extract]
    omega

theorem ResourceRecord.writable_of_read {message : Octets} {offset next : Nat}
    {record : ResourceRecord} (found : read message offset = .ok (record, next)) :
    record.Writable ∧ record.normalized = record := by
  obtain ⟨after, length, name, -, -, -, -, rfl, -, data⟩ := read_eq_ok_iff.mp found
  have bound := length.toNat_lt
  obtain ⟨writable, sameName⟩ := Name.writable_of_read name
  obtain ⟨fits, sameData⟩ := RecordData.fits_of_read data (by omega)
  exact ⟨⟨writable, fits⟩, by rw [normalized, sameName, sameData]⟩

namespace Message

private theorem section_of_read {α : Type} {readOne : Nat → Except MessageError (α × Nat)}
    {normal : α → α} {holds : α → Prop} {count : UInt16} {offset next : Nat} {parts : List α}
    (found : readMany readOne count.toNat offset [] = .ok (parts, next))
    (each : ∀ start stop part, readOne start = .ok (part, stop) → holds part ∧ normal part = part) :
    (∀ part ∈ parts, holds part) ∧ parts.map normal = parts ∧ parts.length ≤ 65535 ∧
      parts.length.toUInt16 = count := by
  obtain ⟨later, rfl, length, readEach⟩ := readMany_parts found
  have bound := count.toNat_lt
  refine ⟨fun part member => ?_, ?_, by omega, ?_⟩
  · obtain ⟨start, stop, first⟩ := readEach part member
    exact (each start stop part first).1
  · calc parts.map normal
        = parts.map id := List.map_congr_left fun part member => by
          obtain ⟨start, stop, first⟩ := readEach part member
          exact (each start stop part first).2
      _ = parts := List.map_id parts
  · rw [length]
    exact UInt16.ofNat_toNat

theorem encodable_of_read {received : Octets} {message : Message}
    (found : read received = .ok message) :
    message.Encodable ∧ message.normalized = message ∧
      received.toList.take 12 = message.header.spelling := by
  obtain ⟨first, second, third, fourth, last, header, questions, answers, authorities,
    additionals⟩ := read_eq_ok_iff.mp found
  obtain ⟨narrow, holds, -⟩ := Header.holds_of_read header
  have eachQuestion : ∀ start stop question,
      readQuestion received start = .ok (question, stop) →
        Name.Writable question.labels ∧ question.normalized = question :=
    fun start stop question atStart => Question.writable_of_read (mapError_eq_ok_iff.mp atStart)
  have eachRecord : ∀ invalid start stop record,
      readRecord invalid received start = .ok (record, stop) →
        record.Writable ∧ record.normalized = record :=
    fun invalid start stop record atStart =>
      ResourceRecord.writable_of_read (mapError_eq_ok_iff.mp atStart)
  obtain ⟨questionsFit, sameQuestions, questionCount, qdcount⟩ :=
    section_of_read questions eachQuestion
  obtain ⟨answersFit, sameAnswers, answerCount, ancount⟩ :=
    section_of_read answers (eachRecord .answerSection)
  obtain ⟨authoritiesFit, sameAuthorities, authorityCount, nscount⟩ :=
    section_of_read authorities (eachRecord .authoritySection)
  obtain ⟨additionalsFit, sameAdditionals, additionalCount, arcount⟩ :=
    section_of_read additionals (eachRecord .additionalSection)
  refine ⟨⟨narrow, questionsFit, ?_, questionCount, answerCount, authorityCount,
    additionalCount⟩, ?_, Octets.take_of_holds holds⟩
  · intro record member
    simp only [List.mem_append] at member
    rcases member with (inAnswers | inAuthorities) | inAdditionals
    · exact answersFit record inAnswers
    · exact authoritiesFit record inAuthorities
    · exact additionalsFit record inAdditionals
  · rw [normalized, countedHeader, sameQuestions, sameAnswers, sameAuthorities, sameAdditionals,
      qdcount, ancount, nscount, arcount]

/-- What has been read is written without loss: the octets are read as the same message, and begin
with the header that was received. -/
theorem read_rewritten {received : Octets} {message : Message}
    (found : read received = .ok message) :
    ∃ octets, message.write = .ok octets ∧ read octets.toArray = .ok message ∧
      octets.take 12 = received.toList.take 12 := by
  obtain ⟨encodable, same, header⟩ := encodable_of_read found
  obtain ⟨octets, written, begins, reads⟩ := encodable.exists_write
  have counted : message.countedHeader = message.header := congrArg Message.header same
  have readBack := reads octets.toArray (Octets.holds_whole octets)
  rw [same] at readBack
  exact ⟨octets, written, readBack, by rw [begins, counted, header]⟩

theorem read_rewritten_compressed :
    let received : Octets := #[
      0, 9, 128, 0, 0, 1, 0, 1, 0, 0, 0, 0,
      1, 122, 0, 0, 6, 0, 1,
      192, 12, 0, 6, 0, 1, 0, 0, 0, 60, 0, 26,
      2, 110, 115, 192, 12, 0, 0, 0, 0, 10, 0, 0, 0, 1, 0, 0, 0, 2, 0, 0, 0, 3, 0, 0, 0, 4,
      255]
    let message : Message := {
      header := { id := 9, qr := true, qdcount := 1, ancount := 1 }
      questions := [{ labels := ["z"], type := .soa, recordClass := .internet }]
      answers := [{
        labels := ["z"], type := .soa, recordClass := .internet, ttl := 60
        data := .soa {
          mname := ["ns", "z"], rname := [], serial := 10, refresh := 1, retry := 2, expire := 3
          minimum := 4 } }] }
    read received = .ok message ∧ ∃ octets, message.write = .ok octets ∧
      read octets.toArray = .ok message ∧ octets.take 12 = received.toList.take 12 := by
  intro received message
  have found : read received = .ok message := by cbv
  exact ⟨found, read_rewritten found⟩

end Message

end ZonePropagation
