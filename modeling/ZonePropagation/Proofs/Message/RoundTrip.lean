import ZonePropagation.Proofs.Message.Header
import ZonePropagation.Proofs.Name.Spelling
/-!
Written messages are read back.

A message within the limits of its octet form is written, and reading gives the message back
without the empty labels of its names and with the counts of its sections.  Each part of a message
has its own such law, and octets that stand after a message make no difference.
-/

namespace ZonePropagation

open Octets (Holds Recovers ofUInt16 ofUInt32)

theorem readUInt16_of_holds {message : Octets} {offset : Nat} {value : UInt16}
    (holds : Holds message offset (ofUInt16 value)) : readUInt16 message offset = .ok value := by
  rw [readUInt16, Octets.uint16At?_of_holds holds]

theorem readUInt32_of_holds {message : Octets} {offset : Nat} {value : UInt32}
    (holds : Holds message offset (ofUInt32 value)) : readUInt32 message offset = .ok value := by
  rw [readUInt32, Octets.uint32At?_of_holds holds]

/-! ### Questions -/

namespace Question

theorem read_eq_ok_iff {message : Octets} {offset next : Nat} {question : Question} :
    read message offset = .ok (question, next) ↔
      ∃ after, Name.read message offset = .ok (question.labels, after) ∧
        readUInt16 message after = .ok question.type.code ∧
        readUInt16 message (after + 2) = .ok question.recordClass.code ∧ next = after + 4 := by
  unfold read
  constructor
  · intro found
    obtain ⟨⟨labels, after⟩, name, found⟩ := bind_eq_ok_iff.mp found
    obtain ⟨type, atType, found⟩ := bind_eq_ok_iff.mp found
    obtain ⟨recordClass, atClass, found⟩ := bind_eq_ok_iff.mp found
    cases found
    exact ⟨after, name, atType, atClass, rfl⟩
  · rintro ⟨after, name, atType, atClass, rfl⟩
    simp only [name, atType, atClass, ok_bind]
    rfl

def normalized (question : Question) : Question :=
  { question with labels := Name.present question.labels }

theorem recovers_write {question : Question} (writable : Name.Writable question.labels) :
    ∃ octets, question.write = .ok octets ∧ Recovers read octets question.normalized := by
  obtain ⟨name, written, recovers, -⟩ := Name.recovers_write writable
  refine ⟨name ++ ofUInt16 question.type.code ++ ofUInt16 question.recordClass.code, ?_, ?_⟩
  · rw [write, written]
    rfl
  · intro message offset holds
    simp only [Octets.holds_append, List.length_append, Octets.length_ofUInt16] at holds
    obtain ⟨⟨nameHeld, typeHeld⟩, classHeld⟩ := holds
    exact read_eq_ok_iff.mpr ⟨offset + name.length, recovers message offset nameHeld,
      readUInt16_of_holds typeHeld, readUInt16_of_holds (by rwa [Nat.add_assoc]), by simp; omega⟩

end Question

/-! ### Starts of authority -/

namespace Authority

theorem read_eq_ok_iff {message : Octets} {offset next : Nat} {authority : Authority} :
    read message offset = .ok (authority, next) ↔
      ∃ between after, Name.read message offset = .ok (authority.mname, between) ∧
        Name.read message between = .ok (authority.rname, after) ∧
        readUInt32 message after = .ok authority.serial ∧
        readUInt32 message (after + 4) = .ok authority.refresh ∧
        readUInt32 message (after + 8) = .ok authority.retry ∧
        readUInt32 message (after + 12) = .ok authority.expire ∧
        readUInt32 message (after + 16) = .ok authority.minimum ∧ next = after + 20 := by
  unfold read
  constructor
  · intro found
    obtain ⟨⟨mname, between⟩, first, found⟩ := bind_eq_ok_iff.mp found
    obtain ⟨⟨rname, after⟩, second, found⟩ := bind_eq_ok_iff.mp found
    obtain ⟨serial, atSerial, found⟩ := bind_eq_ok_iff.mp found
    obtain ⟨refresh, atRefresh, found⟩ := bind_eq_ok_iff.mp found
    obtain ⟨retry, atRetry, found⟩ := bind_eq_ok_iff.mp found
    obtain ⟨expire, atExpire, found⟩ := bind_eq_ok_iff.mp found
    obtain ⟨minimum, atMinimum, found⟩ := bind_eq_ok_iff.mp found
    cases found
    exact ⟨between, after, first, second, atSerial, atRefresh, atRetry, atExpire, atMinimum, rfl⟩
  · rintro ⟨between, after, first, second, serial, refresh, retry, expire, minimum, rfl⟩
    simp only [first, second, serial, refresh, retry, expire, minimum, ok_bind]
    rfl

def normalized (authority : Authority) : Authority :=
  { authority with mname := Name.present authority.mname, rname := Name.present authority.rname }

def numbers (authority : Authority) : List UInt8 :=
  ofUInt32 authority.serial ++ ofUInt32 authority.refresh ++ ofUInt32 authority.retry ++
    ofUInt32 authority.expire ++ ofUInt32 authority.minimum

theorem recovers_write {authority : Authority} (mname : Name.Writable authority.mname)
    (rname : Name.Writable authority.rname) :
    ∃ octets, (RecordData.soa authority).write = .ok octets ∧ octets.length ≤ 532 ∧
      Recovers read octets authority.normalized := by
  obtain ⟨first, wroteFirst, recoversFirst, shortFirst⟩ := Name.recovers_write mname
  obtain ⟨second, wroteSecond, recoversSecond, shortSecond⟩ := Name.recovers_write rname
  refine ⟨first ++ second ++ authority.numbers, ?_, ?_, ?_⟩
  · simp only [RecordData.write, wroteFirst, wroteSecond, ok_bind, numbers, List.append_assoc]
    rfl
  · simp [numbers]
    omega
  · intro message offset holds
    simp only [numbers, Octets.holds_append, List.length_append, Octets.length_ofUInt32,
      ← Nat.add_assoc] at holds
    obtain ⟨⟨firstHeld, secondHeld⟩, ⟨⟨⟨serial, refresh⟩, retry⟩, expire⟩, minimum⟩ := holds
    refine read_eq_ok_iff.mpr ⟨offset + first.length, offset + first.length + second.length,
      recoversFirst message offset firstHeld, recoversSecond message _ secondHeld,
      readUInt32_of_holds serial, readUInt32_of_holds refresh, readUInt32_of_holds retry,
      readUInt32_of_holds expire, readUInt32_of_holds minimum, ?_⟩
    simp [numbers]
    omega

end Authority

/-! ### Records -/

namespace RecordData

/-- The data have the form that the type asks for, and an octet form within the limits. -/
def Fits (type : RecordType) : RecordData → Prop
  | .soa authority =>
      type = .soa ∧ Name.Writable authority.mname ∧ Name.Writable authority.rname
  | .raw octets => type ≠ .soa ∧ octets.length ≤ 65535

instance (type : RecordType) (data : RecordData) : Decidable (data.Fits type) :=
  match data with
  | .soa _ => inferInstanceAs (Decidable (_ ∧ _ ∧ _))
  | .raw _ => inferInstanceAs (Decidable (_ ∧ _))

def normalized : RecordData → RecordData
  | .soa authority => .soa authority.normalized
  | .raw octets => .raw octets

theorem recovers_write {type : RecordType} {data : RecordData} (fits : data.Fits type) :
    ∃ octets, data.write = .ok octets ∧ octets.length ≤ 65535 ∧
      ∀ message start, Holds message start octets →
        read message type start (start + octets.length) = .ok data.normalized := by
  cases data with
  | soa authority =>
    obtain ⟨rfl, mname, rname⟩ := fits
    obtain ⟨octets, written, short, recovers⟩ := Authority.recovers_write mname rname
    refine ⟨octets, written, by omega, fun message start holds => ?_⟩
    rw [read, if_pos rfl, recovers message start holds, ok_bind]
    exact if_pos rfl
  | raw octets =>
    obtain ⟨other, short⟩ := fits
    refine ⟨octets, rfl, short, fun message start holds => ?_⟩
    rw [read, if_neg other, Octets.extract_of_holds holds]
    rfl

end RecordData

namespace ResourceRecord

theorem read_eq_ok_iff {message : Octets} {offset next : Nat} {record : ResourceRecord} :
    read message offset = .ok (record, next) ↔
      ∃ after length, Name.read message offset = .ok (record.labels, after) ∧
        readUInt16 message after = .ok record.type.code ∧
        readUInt16 message (after + 2) = .ok record.recordClass.code ∧
        readUInt32 message (after + 4) = .ok record.ttl ∧
        readUInt16 message (after + 8) = .ok length ∧ next = after + 10 + length.toNat ∧
        next ≤ message.size ∧
        RecordData.read message record.type (after + 10) next = .ok record.data := by
  unfold read
  constructor
  · intro found
    obtain ⟨⟨labels, after⟩, name, found⟩ := bind_eq_ok_iff.mp found
    obtain ⟨type, atType, found⟩ := bind_eq_ok_iff.mp found
    obtain ⟨recordClass, atClass, found⟩ := bind_eq_ok_iff.mp found
    obtain ⟨ttl, atTtl, found⟩ := bind_eq_ok_iff.mp found
    obtain ⟨length, atLength, found⟩ := bind_eq_ok_iff.mp found
    dsimp only at found
    split at found
    · cases found
    · next inside =>
      obtain ⟨data, atData, found⟩ := bind_eq_ok_iff.mp found
      cases found
      exact ⟨after, length, name, atType, atClass, atTtl, atLength, rfl, Nat.not_lt.mp inside,
        atData⟩
  · rintro ⟨after, length, name, atType, atClass, atTtl, atLength, rfl, inside, atData⟩
    simp only [name, atType, atClass, atTtl, atLength, ok_bind]
    rw [if_neg (Nat.not_lt.mpr inside)]
    simp only [atData, ok_bind]
    rfl

theorem write_eq_ok_iff {record : ResourceRecord} {octets : List UInt8} :
    record.write = .ok octets ↔
      ∃ name data, record.data.write = .ok data ∧ data.length ≤ 65535 ∧
        Name.write record.labels = .ok name ∧
        octets = name ++ ofUInt16 record.type.code ++ ofUInt16 record.recordClass.code ++
          ofUInt32 record.ttl ++ ofUInt16 data.length.toUInt16 ++ data := by
  unfold write maxDataOctets
  constructor
  · intro written
    obtain ⟨data, wroteData, written⟩ := bind_eq_ok_iff.mp written
    split at written
    · cases written
    · next short =>
      obtain ⟨name, wroteName, written⟩ := bind_eq_ok_iff.mp written
      cases written
      exact ⟨name, data, wroteData, Nat.not_lt.mp short, wroteName, rfl⟩
  · rintro ⟨name, data, wroteData, short, wroteName, rfl⟩
    simp only [wroteData, ok_bind]
    rw [if_neg (Nat.not_lt.mpr short)]
    simp only [wroteName, ok_bind]
    rfl

def normalized (record : ResourceRecord) : ResourceRecord :=
  { record with labels := Name.present record.labels, data := record.data.normalized }

/-- The name and the data of the record have octet forms within the limits. -/
structure Writable (record : ResourceRecord) : Prop where
  name : Name.Writable record.labels
  data : record.data.Fits record.type

instance (record : ResourceRecord) : Decidable record.Writable :=
  decidable_of_iff (Name.Writable record.labels ∧ record.data.Fits record.type)
    ⟨fun both => ⟨both.1, both.2⟩, fun writable => ⟨writable.name, writable.data⟩⟩

theorem recovers_write {record : ResourceRecord} (writable : record.Writable) :
    ∃ octets, record.write = .ok octets ∧ Recovers read octets record.normalized := by
  obtain ⟨name, wroteName, recovers, -⟩ := Name.recovers_write writable.name
  obtain ⟨data, wroteData, short, readsData⟩ := RecordData.recovers_write writable.data
  refine ⟨_, write_eq_ok_iff.mpr ⟨name, data, wroteData, short, wroteName, rfl⟩, ?_⟩
  intro message offset holds
  have inside := holds.inside (by simp [ofUInt16])
  have size : data.length.toUInt16.toNat = data.length := by
    simp
    omega
  simp only [List.append_assoc] at holds
  obtain ⟨nameHeld, rest⟩ := Octets.holds_append.mp holds
  have named := recovers message offset nameHeld
  simp only [List.length_append, Octets.length_ofUInt16, Octets.length_ofUInt32] at inside ⊢
  have next : offset + (name.length + 2 + 2 + 4 + 2 + data.length) =
      offset + name.length + 10 + data.length := by omega
  rw [next] at inside ⊢
  generalize offset + name.length = after at *
  simp only [Octets.holds_append, Octets.length_ofUInt16, Octets.length_ofUInt32,
    Nat.add_assoc, Nat.reduceAdd] at rest
  obtain ⟨type, recordClass, ttl, length, dataHeld⟩ := rest
  exact read_eq_ok_iff.mpr ⟨after, data.length.toUInt16, named, readUInt16_of_holds type,
    readUInt16_of_holds recordClass, readUInt32_of_holds ttl, readUInt16_of_holds length,
    by rw [size], inside, readsData message (after + 10) dataHeld⟩

end ResourceRecord

/-! ### Sections -/

theorem recovers_section {α : Type} {read : Octets → Nat → Except MessageError (α × Nat)}
    {write : α → Except MessageError (List UInt8)} {normal : α → α} {parts : List α}
    (each : ∀ part ∈ parts, ∃ octets, write part = .ok octets ∧
      Recovers read octets (normal part)) :
    ∃ written, parts.mapM write = .ok written ∧
      ∀ done, Recovers (fun message offset => readMany (read message) parts.length offset done)
        written.flatten (done.reverse ++ parts.map normal) := by
  induction parts with
  | nil => exact ⟨[], rfl, fun done message offset _ => by simp [readMany]⟩
  | cons part parts ih =>
    obtain ⟨octets, wrotePart, recoversPart⟩ := each part (.head _)
    obtain ⟨written, wroteRest, recoversRest⟩ := ih fun other member => each other (.tail _ member)
    refine ⟨octets :: written, ?_, fun done message offset holds => ?_⟩
    · rw [List.mapM_cons, wrotePart, wroteRest]
      rfl
    · rw [List.flatten_cons, Octets.holds_append] at holds
      have later := recoversRest (normal part :: done) message _ holds.2
      simp only [List.length_cons, readMany, recoversPart message offset holds.1]
      refine later.trans ?_
      simp [Nat.add_assoc]

theorem Octets.Recovers.mapError {ε δ α : Type} {read : Octets → Nat → Except ε (α × Nat)}
    {spelling : List UInt8} {value : α} (recovers : Recovers read spelling value) (name : ε → δ) :
    Recovers (fun message offset => (read message offset).mapError name) spelling value := by
  intro message offset holds
  exact mapError_eq_ok_iff.mpr (recovers message offset holds)

/-! ### Messages -/

namespace Message

structure Encodable (message : Message) : Prop where
  header : message.header.Narrow
  questions : ∀ question ∈ message.questions, Name.Writable question.labels
  records :
    ∀ record ∈ message.answers ++ message.authorities ++ message.additionals, record.Writable
  questionCount : message.questions.length ≤ 65535
  answerCount : message.answers.length ≤ 65535
  authorityCount : message.authorities.length ≤ 65535
  additionalCount : message.additionals.length ≤ 65535

instance (message : Message) : Decidable message.Encodable :=
  decidable_of_iff (message.header.Narrow ∧
      (∀ question ∈ message.questions, Name.Writable question.labels) ∧
      (∀ record ∈ message.answers ++ message.authorities ++ message.additionals, record.Writable) ∧
      message.questions.length ≤ 65535 ∧ message.answers.length ≤ 65535 ∧
      message.authorities.length ≤ 65535 ∧ message.additionals.length ≤ 65535)
    ⟨fun ⟨header, questions, records, asked, answered, delegated, added⟩ =>
      ⟨header, questions, records, asked, answered, delegated, added⟩,
      fun ⟨header, questions, records, asked, answered, delegated, added⟩ =>
        ⟨header, questions, records, asked, answered, delegated, added⟩⟩

/-- The message without the empty labels of its names and with the counts of its sections. -/
def normalized (message : Message) : Message where
  header := message.countedHeader
  questions := message.questions.map Question.normalized
  answers := message.answers.map ResourceRecord.normalized
  authorities := message.authorities.map ResourceRecord.normalized
  additionals := message.additionals.map ResourceRecord.normalized

theorem write_eq_ok_iff {message : Message} {octets : List UInt8} :
    message.write = .ok octets ↔ message.header.Narrow ∧
      ∃ questions answers authorities additionals,
        message.questions.mapM Question.write = .ok questions ∧
        message.answers.mapM ResourceRecord.write = .ok answers ∧
        message.authorities.mapM ResourceRecord.write = .ok authorities ∧
        message.additionals.mapM ResourceRecord.write = .ok additionals ∧
        octets = message.countedHeader.spelling ++ questions.flatten ++ answers.flatten ++
          authorities.flatten ++ additionals.flatten := by
  have sameNarrow : message.countedHeader.Narrow ↔ message.header.Narrow :=
    ⟨fun narrow => ⟨narrow.1, narrow.2, narrow.3⟩, fun narrow => ⟨narrow.1, narrow.2, narrow.3⟩⟩
  unfold write
  constructor
  · intro written
    obtain ⟨header, wroteHeader, written⟩ := bind_eq_ok_iff.mp written
    obtain ⟨questions, wroteQuestions, written⟩ := bind_eq_ok_iff.mp written
    obtain ⟨answers, wroteAnswers, written⟩ := bind_eq_ok_iff.mp written
    obtain ⟨authorities, wroteAuthorities, written⟩ := bind_eq_ok_iff.mp written
    obtain ⟨additionals, wroteAdditionals, written⟩ := bind_eq_ok_iff.mp written
    cases written
    obtain ⟨narrow, rfl⟩ := Header.write_eq_ok_iff.mp wroteHeader
    exact ⟨sameNarrow.mp narrow, questions, answers, authorities, additionals, wroteQuestions,
      wroteAnswers, wroteAuthorities, wroteAdditionals, rfl⟩
  · rintro ⟨narrow, questions, answers, authorities, additionals, wroteQuestions, wroteAnswers,
      wroteAuthorities, wroteAdditionals, rfl⟩
    have wroteHeader := Header.write_eq_ok_iff.mpr ⟨sameNarrow.mpr narrow, rfl⟩
    simp only [wroteHeader, wroteQuestions, wroteAnswers, wroteAuthorities, wroteAdditionals,
      ok_bind]
    rfl

theorem toNat_count {size : Nat} (few : size ≤ 65535) : size.toUInt16.toNat = size := by
  simp
  omega

theorem read_eq_ok_iff {received : Octets} {message : Message} :
    read received = .ok message ↔ ∃ first second third fourth last,
      Header.read received 0 = .ok (message.header, first) ∧
      readMany (readQuestion received) message.header.qdcount.toNat first [] =
        .ok (message.questions, second) ∧
      readMany (readRecord .answerSection received) message.header.ancount.toNat second [] =
        .ok (message.answers, third) ∧
      readMany (readRecord .authoritySection received) message.header.nscount.toNat third [] =
        .ok (message.authorities, fourth) ∧
      readMany (readRecord .additionalSection received) message.header.arcount.toNat fourth [] =
        .ok (message.additionals, last) := by
  unfold read
  constructor
  · intro found
    obtain ⟨⟨header, first⟩, atHeader, found⟩ := bind_eq_ok_iff.mp found
    obtain ⟨⟨questions, second⟩, atQuestions, found⟩ := bind_eq_ok_iff.mp found
    obtain ⟨⟨answers, third⟩, atAnswers, found⟩ := bind_eq_ok_iff.mp found
    obtain ⟨⟨authorities, fourth⟩, atAuthorities, found⟩ := bind_eq_ok_iff.mp found
    obtain ⟨⟨additionals, last⟩, atAdditionals, found⟩ := bind_eq_ok_iff.mp found
    cases found
    exact ⟨first, second, third, fourth, last, atHeader, atQuestions, atAnswers, atAuthorities,
      atAdditionals⟩
  · rintro ⟨first, second, third, fourth, last, header, questions, answers, authorities,
      additionals⟩
    simp only [header, questions, answers, authorities, additionals, ok_bind]
    rfl

theorem recovers_records (invalid : MessageError) (records : List ResourceRecord)
    (writable : ∀ record ∈ records, record.Writable) :
    ∃ written, records.mapM ResourceRecord.write = .ok written ∧
      Recovers
        (fun received offset => readMany (readRecord invalid received) records.length offset [])
        written.flatten (records.map ResourceRecord.normalized) := by
  have each : ∀ record ∈ records, ∃ octets, record.write = .ok octets ∧
      Recovers (readRecord invalid) octets record.normalized := by
    intro record member
    obtain ⟨octets, written, recovers⟩ := ResourceRecord.recovers_write (writable record member)
    exact ⟨octets, written, recovers.mapError _⟩
  obtain ⟨written, wrote, recovers⟩ := recovers_section each
  exact ⟨written, wrote, recovers []⟩

theorem recovers_questions {questions : List Question}
    (writable : ∀ question ∈ questions, Name.Writable question.labels) :
    ∃ written, questions.mapM Question.write = .ok written ∧
      Recovers (fun received offset => readMany (readQuestion received) questions.length offset [])
        written.flatten (questions.map Question.normalized) := by
  have each : ∀ question ∈ questions, ∃ octets, question.write = .ok octets ∧
      Recovers readQuestion octets question.normalized := by
    intro question member
    obtain ⟨octets, written, recovers⟩ := Question.recovers_write (writable question member)
    exact ⟨octets, written, recovers.mapError _⟩
  obtain ⟨written, wrote, recovers⟩ := recovers_section each
  exact ⟨written, wrote, recovers []⟩

theorem Encodable.exists_write {message : Message} (encodable : message.Encodable) :
    ∃ octets, message.write = .ok octets ∧ octets.take 12 = message.countedHeader.spelling ∧
      ∀ received, Holds received 0 octets → read received = .ok message.normalized := by
  obtain ⟨questions, wroteQuestions, readsQuestions⟩ := recovers_questions encodable.questions
  obtain ⟨answers, wroteAnswers, readsAnswers⟩ := recovers_records .answerSection
    message.answers fun record member => encodable.records record (by simp [member])
  obtain ⟨authorities, wroteAuthorities, readsAuthorities⟩ := recovers_records .authoritySection
    message.authorities fun record member => encodable.records record (by simp [member])
  obtain ⟨additionals, wroteAdditionals, readsAdditionals⟩ := recovers_records .additionalSection
    message.additionals fun record member => encodable.records record (by simp [member])
  refine ⟨_, write_eq_ok_iff.mpr ⟨encodable.header, questions, answers, authorities, additionals,
    wroteQuestions, wroteAnswers, wroteAuthorities, wroteAdditionals, rfl⟩, ?_, ?_⟩
  · simp only [List.append_assoc]
    exact List.take_left' (Header.length_spelling _)
  intro received holds
  simp only [Octets.holds_append, List.length_append, ← Nat.add_assoc] at holds
  obtain ⟨⟨⟨⟨header, questionsHeld⟩, answersHeld⟩, authoritiesHeld⟩, additionalsHeld⟩ := holds
  have narrow : message.countedHeader.Narrow :=
    ⟨encodable.header.1, encodable.header.2, encodable.header.3⟩
  have headerRead := Header.recovers_spelling narrow received 0 header
  have questionsRead := readsQuestions received _ questionsHeld
  have answersRead := readsAnswers received _ answersHeld
  have authoritiesRead := readsAuthorities received _ authoritiesHeld
  have additionalsRead := readsAdditionals received _ additionalsHeld
  rw [← toNat_count encodable.questionCount] at questionsRead
  rw [← toNat_count encodable.answerCount] at answersRead
  rw [← toNat_count encodable.authorityCount] at authoritiesRead
  rw [← toNat_count encodable.additionalCount] at additionalsRead
  exact read_eq_ok_iff.mpr ⟨_, _, _, _, _, headerRead, questionsRead, answersRead, authoritiesRead,
    additionalsRead⟩

/-- Reading undoes writing. -/
theorem Encodable.read_written {message : Message} (encodable : message.Encodable) :
    ∃ octets, message.write = .ok octets ∧ read octets.toArray = .ok message.normalized := by
  obtain ⟨octets, written, -, reads⟩ := encodable.exists_write
  exact ⟨octets, written, reads octets.toArray (Octets.holds_whole octets)⟩

/-- A message with empty labels, a start of authority, a record without data, and a header that
announces other counts than those of its sections. -/
theorem Encodable.read_written_answer :
    ∃ octets,
      Message.write {
        header := { id := 7, qr := true, opcode := 4, z := 5, rcode := 9, ancount := 3 }
        answers := [{
          labels := ["example", "", "com"], type := .soa, recordClass := .internet, ttl := 300
          data := .soa { mname := ["ns", ""], rname := [], serial := 4294967295 } }]
        additionals := [{
          labels := [""], type := ⟨41⟩, recordClass := ⟨1232⟩, ttl := 0, data := .raw [] }] } =
        .ok octets ∧
      read octets.toArray = .ok {
        header := {
          id := 7, qr := true, opcode := 4, z := 5, rcode := 9, ancount := 1, arcount := 1 }
        answers := [{
          labels := ["example", "com"], type := .soa, recordClass := .internet, ttl := 300
          data := .soa { mname := ["ns"], rname := [], serial := 4294967295 } }]
        additionals := [{
          labels := [], type := ⟨41⟩, recordClass := ⟨1232⟩, ttl := 0, data := .raw [] }] } :=
  Encodable.read_written (by decide)

end Message

end ZonePropagation
