import ZonePropagation.Proofs.Message.Extension
/-!
Messages that are cut off.

A message that ends inside the octets written for a part holds the beginning of them and nothing
after it.  Every reader notices that, wherever the end is: it reaches an octet that is not there
before it can come to any other decision.  So what is written for a message is read from it and
whatever follows it, and from no shorter beginning of it, and the cause tells the section in which
it ends.
-/

namespace ZonePropagation

open Octets (Holds Recovers ofUInt16 ofUInt32 ofText)

/-! ### Ends inside a part -/

namespace Octets

def Breaks (message : Octets) (offset : Nat) (part : List UInt8) : Prop :=
  ∃ before rest, rest ≠ [] ∧ part = before ++ rest ∧ Holds message offset before ∧
    message.size = offset + before.length

variable {message : Octets} {offset : Nat} {part : List UInt8}

theorem breaks_take {cut : Nat} (inside : cut < part.length) :
    Breaks (part.take cut).toArray 0 part := by
  refine ⟨part.take cut, part.drop cut, ?_, (List.take_append_drop cut part).symm,
    holds_whole _, by simp⟩
  rw [Ne, List.drop_eq_nil_iff]
  omega

theorem not_breaks_nil : ¬Breaks message offset [] := by
  rintro ⟨before, rest, nonempty, split, -⟩
  exact nonempty (List.append_eq_nil_iff.mp split.symm).2

theorem Breaks.size_lt (breaks : Breaks message offset part) :
    message.size < offset + part.length := by
  obtain ⟨before, rest, nonempty, rfl, -, size⟩ := breaks
  have positive := List.length_pos_iff.mpr nonempty
  rw [List.length_append]
  omega

theorem Breaks.offset_le (breaks : Breaks message offset part) : offset ≤ message.size := by
  obtain ⟨before, rest, -, -, -, size⟩ := breaks
  omega

theorem breaks_append {first second : List UInt8} (breaks : Breaks message offset (first ++ second)) :
    Breaks message offset first ∨
      Holds message offset first ∧ Breaks message (offset + first.length) second := by
  obtain ⟨before, rest, nonempty, split, holds, size⟩ := breaks
  rcases List.append_eq_append_iff.mp split with ⟨more, rfl, rfl⟩ | ⟨more, rfl, rfl⟩
  · rw [holds_append] at holds
    rw [List.length_append, ← Nat.add_assoc] at size
    exact .inr ⟨holds.1, more, rest, nonempty, rfl, holds.2, size⟩
  · cases more with
    | nil =>
        rw [List.append_nil]
        exact .inr ⟨holds, [], second, nonempty, rfl, holds_nil _ _, size⟩
    | cons octet more => exact .inl ⟨before, octet :: more, by simp, rfl, holds, size⟩

def Notices {ε α : Type} (read : Octets → Nat → Except ε α) (spelling : List UInt8)
    (cause : ε) : Prop :=
  ∀ message offset, Breaks message offset spelling → read message offset = .error cause

theorem Notices.mapError {ε δ α : Type} {read : Octets → Nat → Except ε α}
    {spelling : List UInt8} {cause : ε} (notices : Notices read spelling cause) (name : ε → δ) :
    Notices (fun message offset => (read message offset).mapError name) spelling (name cause) := by
  intro message offset breaks
  dsimp only
  rw [notices message offset breaks]
  rfl

/-- A reader of one part after another notices an end in the first, and goes on to the second one
where the first is held. -/
theorem Notices.bind {ε α β : Type} {read : Octets → Nat → Except ε α} {first second : List UInt8}
    {size : Nat} {cause : ε} {value : α} {follow : α → Except ε β}
    (notices : Notices read first cause)
    (recovers : Holds message offset first → read message offset = .ok value)
    (length : first.length = size) (breaks : Breaks message offset (first ++ second))
    (rest : Breaks message (offset + size) second → follow value = .error cause) :
    (read message offset >>= follow) = .error cause := by
  subst length
  rcases breaks_append breaks with inFirst | ⟨held, inSecond⟩
  · rw [notices message offset inFirst]
    rfl
  · rw [recovers held]
    exact rest inSecond

theorem Breaks.missing {octet : UInt8} (breaks : Breaks message offset [octet]) :
    message[offset]? = none := by
  have short := breaks.size_lt
  rw [List.length_singleton] at short
  exact Array.getElem?_eq_none (by omega)

end Octets

open Octets (Breaks Notices)

/-! ### Numbers and names -/

theorem readUInt16_notices (value : UInt16) :
    Notices readUInt16 (ofUInt16 value) .truncated := by
  intro message offset breaks
  have short := breaks.size_lt
  rw [Octets.length_ofUInt16] at short
  unfold readUInt16
  cases found : Octets.uint16At? message offset with
  | none => rfl
  | some value =>
      have inside := Octets.inside_of_uint16At? found
      omega

theorem readUInt32_notices (value : UInt32) :
    Notices readUInt32 (ofUInt32 value) .truncated := by
  intro message offset breaks
  have short := breaks.size_lt
  rw [Octets.length_ofUInt32] at short
  unfold readUInt32
  cases found : Octets.uint32At? message offset with
  | none => rfl
  | some value =>
      have inside := Octets.inside_of_uint32At? found
      omega

namespace Name

theorem readRest_of_breaks {message : Octets} {labels : List String} {octets : List UInt8}
    {position pointers room : Nat} (written : write labels = .ok octets)
    (fits : octetCount (present labels) ≤ room) (breaks : Breaks message position octets) :
    readRest message position pointers room = .error .truncated := by
  induction labels generalizing octets position room with
  | nil =>
      cases written
      have missing := Breaks.missing breaks
      rw [readRest, missing]
  | cons label labels ih =>
      rcases write_cons_cases written with
        ⟨hidden, wroteRest⟩ | ⟨first, rest, shown, nonempty, short, filled, wroteRest, rfl⟩
      · rw [hidden] at fits
        exact ih wroteRest fits breaks
      · rw [shown, octetCount_cons] at fits
        rw [← List.singleton_append] at breaks
        rcases Octets.breaks_append breaks with atLength | ⟨lengthHeld, breaks⟩
        · rw [readRest, atLength.missing]
        have atFirst := (Octets.holds_cons.mp lengthHeld).1
        rcases Octets.breaks_append breaks with inText | ⟨textHeld, inRest⟩
        · have outside := inText.size_lt
          rw [List.length_singleton, Octets.length_ofText] at outside
          have noSlice : Octets.slice? message (position + 1) first.toNat = none := by
            rw [Octets.slice?, if_neg (by omega)]
          rw [readRest_length atFirst nonempty short, noSlice]
        · rw [List.length_singleton, Octets.length_ofText, filled] at inRest
          rw [readRest_label atFirst nonempty filled short textHeld, if_pos (by omega),
            ih wroteRest (by omega) inRest]
          rfl

theorem notices_of_write {labels : List String} {octets : List UInt8}
    (written : write labels = .ok octets) (fits : octetCount (present labels) ≤ 255) :
    Notices read octets .truncated :=
  fun _ _ breaks => readRest_of_breaks written fits breaks

end Name

/-! ### Questions and records -/

namespace Question

theorem notices_of_write {question : Question} {octets : List UInt8}
    (writable : Name.Writable question.labels) (written : question.write = .ok octets) :
    Notices read octets .truncated := by
  obtain ⟨name, wroteName, made⟩ := bind_eq_ok_iff.mp written
  cases made
  intro message offset breaks
  rw [List.append_assoc] at breaks
  unfold read
  refine (Name.notices_of_write wroteName writable.2).bind
    (Name.recovers_of_write wroteName writable.2 message offset) rfl breaks fun breaks => ?_
  refine (readUInt16_notices _).bind readUInt16_of_holds (Octets.length_ofUInt16 _) breaks
    fun inClass => ?_
  rw [readUInt16_notices _ message _ inClass]
  rfl

end Question

namespace ResourceRecord

theorem notices_of_write {record : ResourceRecord} {octets : List UInt8}
    (writable : record.Writable) (written : record.write = .ok octets) :
    Notices read octets .truncated := by
  obtain ⟨name, data, -, short, wroteName, rfl⟩ := write_eq_ok_iff.mp written
  have size : data.length.toUInt16.toNat = data.length := by
    simp
    omega
  intro message offset breaks
  simp only [List.append_assoc] at breaks
  unfold read
  refine (Name.notices_of_write wroteName writable.name.2).bind
    (Name.recovers_of_write wroteName writable.name.2 message offset) rfl breaks fun breaks => ?_
  generalize offset + name.length = after at breaks ⊢
  refine (readUInt16_notices _).bind readUInt16_of_holds (Octets.length_ofUInt16 _) breaks
    fun breaks => ?_
  refine (readUInt16_notices _).bind readUInt16_of_holds (Octets.length_ofUInt16 _) breaks
    fun breaks => ?_
  refine (readUInt32_notices _).bind readUInt32_of_holds (Octets.length_ofUInt32 _) breaks
    fun breaks => ?_
  refine (readUInt16_notices _).bind readUInt16_of_holds (Octets.length_ofUInt16 _) breaks
    fun inData => ?_
  have outside := inData.size_lt
  rw [size, if_pos (by omega)]
  rfl

end ResourceRecord

/-! ### Sections -/

theorem section_notices {α : Type} {read : Octets → Nat → Except MessageError (α × Nat)}
    {write : α → Except MessageError (List UInt8)} {cause : MessageError}
    {parts : List α} {written : List (List UInt8)}
    (each : ∀ part ∈ parts, ∀ octets, write part = .ok octets →
      (∃ value, Recovers read octets value) ∧ Notices read octets cause)
    (wrote : parts.mapM write = .ok written) (done : List α) :
    Notices (fun message offset => readMany (read message) parts.length offset done)
      written.flatten cause := by
  induction parts generalizing written done with
  | nil =>
      cases wrote
      exact fun message offset breaks => absurd breaks Octets.not_breaks_nil
  | cons part parts ih =>
      rw [List.mapM_cons, bind_eq_ok_iff] at wrote
      obtain ⟨octets, wrotePart, wrote⟩ := wrote
      obtain ⟨others, wroteRest, joined⟩ := bind_eq_ok_iff.mp wrote
      cases joined
      obtain ⟨⟨value, recovers⟩, notices⟩ := each part (.head _) octets wrotePart
      intro message offset breaks
      rw [List.flatten_cons] at breaks
      dsimp only
      rw [List.length_cons, readMany]
      rcases Octets.breaks_append breaks with inPart | ⟨partHeld, inRest⟩
      · rw [notices message offset inPart]
      · rw [recovers message offset partHeld]
        exact ih (fun other member => each other (.tail _ member)) wroteRest _ message _ inRest

theorem Header.spelling_notices (header : Header) :
    Notices Header.read header.spelling .header := by
  intro message offset breaks
  have short := breaks.size_lt
  cases found : Header.read message offset with
  | ok result =>
      obtain ⟨-, holds, -⟩ := Header.holds_of_read found
      have inside := holds.inside (List.ne_nil_of_length_pos (by simp [Header.size]))
      rw [Header.length_spelling] at inside short
      omega
  | error cause =>
      unfold Header.read at found
      split at found
      · cases found
      · exact found.symm

namespace Message

theorem questions_notice {questions : List Question} {written : List (List UInt8)}
    (writable : ∀ question ∈ questions, Name.Writable question.labels)
    (wrote : questions.mapM Question.write = .ok written) :
    Notices (fun received offset => readMany (readQuestion received) questions.length offset [])
      written.flatten .questionSection := by
  refine section_notices (fun question member octets wroteOne => ?_) wrote []
  obtain ⟨same, wroteSame, recovers⟩ := Question.recovers_write (writable question member)
  cases wroteSame.symm.trans wroteOne
  exact ⟨⟨_, recovers.mapError _⟩,
    (Question.notices_of_write (writable question member) wroteOne).mapError _⟩

theorem records_notice (invalid : MessageError) {records : List ResourceRecord}
    {written : List (List UInt8)} (writable : ∀ record ∈ records, record.Writable)
    (wrote : records.mapM ResourceRecord.write = .ok written) :
    Notices
      (fun received offset => readMany (readRecord invalid received) records.length offset [])
      written.flatten .truncated := by
  refine section_notices (fun record member octets wroteOne => ?_) wrote []
  obtain ⟨same, wroteSame, recovers⟩ := ResourceRecord.recovers_write (writable record member)
  cases wroteSame.symm.trans wroteOne
  exact ⟨⟨_, recovers.mapError _⟩,
    (ResourceRecord.notices_of_write (writable record member) wroteOne).mapError invalid.inSection⟩

/-- The cause for a message of that many octets that is cut off, when its questions take `asked`
octets. -/
def cutCause (asked size : Nat) : MessageError :=
  if size < Header.size then .header
  else if size < Header.size + asked then .questionSection
  else .truncated

theorem Encodable.read_of_breaks {message : Message} (encodable : message.Encodable) :
    ∃ asked records, message.questions.mapM Question.write = .ok asked ∧
      message.write = .ok (message.countedHeader.spelling ++ asked.flatten ++ records) ∧
      ∀ received, Breaks received 0 (message.countedHeader.spelling ++ asked.flatten ++ records) →
        read received = .error (cutCause asked.flatten.length received.size) := by
  have answerFits : ∀ record ∈ message.answers, record.Writable :=
    fun record member => encodable.records record (by simp [member])
  have authorityFits : ∀ record ∈ message.authorities, record.Writable :=
    fun record member => encodable.records record (by simp [member])
  have additionalFits : ∀ record ∈ message.additionals, record.Writable :=
    fun record member => encodable.records record (by simp [member])
  obtain ⟨questions, wroteQuestions, readsQuestions⟩ := recovers_questions encodable.questions
  obtain ⟨answers, wroteAnswers, readsAnswers⟩ :=
    recovers_records .answerSection message.answers answerFits
  obtain ⟨authorities, wroteAuthorities, readsAuthorities⟩ :=
    recovers_records .authoritySection message.authorities authorityFits
  obtain ⟨additionals, wroteAdditionals, -⟩ :=
    recovers_records .additionalSection message.additionals additionalFits
  refine ⟨questions, answers.flatten ++ (authorities.flatten ++ additionals.flatten),
    wroteQuestions, ?_, fun received breaks => ?_⟩
  · exact write_eq_ok_iff.mpr ⟨encodable.header, questions, answers, authorities, additionals,
      wroteQuestions, wroteAnswers, wroteAuthorities, wroteAdditionals, by simp⟩
  have narrow : message.countedHeader.Narrow :=
    ⟨encodable.header.1, encodable.header.2, encodable.header.3⟩
  have qdcount : message.countedHeader.qdcount.toNat = message.questions.length :=
    toNat_count encodable.questionCount
  have ancount : message.countedHeader.ancount.toNat = message.answers.length :=
    toNat_count encodable.answerCount
  have nscount : message.countedHeader.nscount.toNat = message.authorities.length :=
    toNat_count encodable.authorityCount
  have arcount : message.countedHeader.arcount.toNat = message.additionals.length :=
    toNat_count encodable.additionalCount
  rw [List.append_assoc] at breaks
  unfold read cutCause
  rcases Octets.breaks_append breaks with inHeader | ⟨headerHeld, breaks⟩
  · have short := inHeader.size_lt
    rw [Header.length_spelling, Nat.zero_add] at short
    rw [Header.spelling_notices _ received 0 inHeader, if_pos short]
    rfl
  have headerRead := Header.recovers_spelling narrow received 0 headerHeld
  have afterHeader := breaks.offset_le
  rw [Header.length_spelling, Nat.zero_add] at breaks afterHeader headerRead
  rw [headerRead, ok_bind, if_neg (by omega)]
  dsimp only
  rw [qdcount, ancount, nscount, arcount]
  rcases Octets.breaks_append breaks with inQuestions | ⟨questionsHeld, breaks⟩
  · have failed : readMany (readQuestion received) message.questions.length Header.size [] =
        .error .questionSection :=
      questions_notice encodable.questions wroteQuestions received _ inQuestions
    rw [failed, if_pos inQuestions.size_lt]
    rfl
  have questionsRead := readsQuestions received _ questionsHeld
  have afterQuestions := breaks.offset_le
  dsimp only at questionsRead
  rw [questionsRead, ok_bind, if_neg (by omega)]
  dsimp only
  refine (records_notice .answerSection answerFits wroteAnswers).bind (readsAnswers received _) rfl
    breaks fun breaks => ?_
  refine (records_notice .authoritySection authorityFits wroteAuthorities).bind
    (readsAuthorities received _) rfl breaks fun inAdditionals => ?_
  have failed :=
    records_notice .additionalSection additionalFits wroteAdditionals received _ inAdditionals
  dsimp only at failed ⊢
  rw [failed]
  rfl

/-- Whatever follows a message makes no difference to what is read of it.  Of what is written for
an encodable message, no shorter beginning is a message: one with fewer octets than a header has an
invalid header, one that ends among the questions has an invalid question section, and one that
ends among the records is truncated. -/
theorem read_extended_and_cut :
    (∀ (received tail : Octets) (message : Message), read received = .ok message →
      read (received ++ tail) = .ok message) ∧
    ∀ message : Message, message.Encodable →
      ∃ asked records octets, message.questions.mapM Question.write = .ok asked ∧
        octets = message.countedHeader.spelling ++ asked.flatten ++ records ∧
        message.write = .ok octets ∧
        ∀ cut < octets.length, read (octets.take cut).toArray =
          .error (if cut < 12 then .header
            else if cut < 12 + asked.flatten.length then .questionSection
            else .truncated) := by
  constructor
  · intro received tail message accepted
    exact read_extended (Octets.extends_append received tail) accepted
  · intro message encodable
    obtain ⟨asked, records, wroteQuestions, written, fails⟩ := encodable.read_of_breaks
    refine ⟨asked, records, _, wroteQuestions, rfl, written, fun cut inside => ?_⟩
    have failed := fails _ (Octets.breaks_take inside)
    rw [List.size_toArray, List.length_take, Nat.min_eq_left inside.le] at failed
    exact failed

/-- An answer with compressed names before other octets, and the same answer as it is written, cut
off in its header, after its header, in the name of its record and before its last octet. -/
theorem read_extended_and_cut_answer :
    let received : Octets := #[
      0, 9, 128, 0, 0, 1, 0, 1, 0, 0, 0, 0,
      1, 122, 0, 0, 6, 0, 1,
      192, 12, 0, 6, 0, 1, 0, 0, 0, 60, 0, 26,
      2, 110, 115, 192, 12, 0, 0, 0, 0, 10, 0, 0, 0, 1, 0, 0, 0, 2, 0, 0, 0, 3, 0, 0, 0, 4]
    let message : Message := {
      header := { id := 9, qr := true, qdcount := 1, ancount := 1 }
      questions := [{ labels := ["z"], type := .soa, recordClass := .internet }]
      answers := [{
        labels := ["z"], type := .soa, recordClass := .internet, ttl := 60
        data := .soa {
          mname := ["ns", "z"], rname := [], serial := 10, refresh := 1, retry := 2, expire := 3
          minimum := 4 } }] }
    read received = .ok message ∧ read (received ++ #[192, 12]) = .ok message ∧
      message.Encodable ∧ ∃ octets, message.write = .ok octets ∧ octets.length = 59 ∧
        read (octets.take 11).toArray = .error .header ∧
        read (octets.take 12).toArray = .error .questionSection ∧
        read (octets.take 20).toArray = .error .truncated ∧
        read (octets.take 58).toArray = .error .truncated := by
  intro received message
  have accepted : read received = .ok message := by cbv
  have encodable : message.Encodable := by decide
  obtain ⟨extended, cut⟩ := read_extended_and_cut
  obtain ⟨asked, records, octets, wroteQuestions, -, written, fails⟩ := cut message encodable
  have questions : message.questions.mapM Question.write = .ok [[1, 122, 0, 0, 6, 0, 1]] := by cbv
  cases wroteQuestions.symm.trans questions
  have length : message.write.map List.length = .ok 59 := by decide +kernel
  rw [written] at length
  have length := Except.ok.inj length
  exact ⟨accepted, extended received #[192, 12] message accepted, encodable, octets, written, length,
    fails 11 (by omega), fails 12 (by omega), fails 20 (by omega), fails 58 (by omega)⟩

end Message

end ZonePropagation
