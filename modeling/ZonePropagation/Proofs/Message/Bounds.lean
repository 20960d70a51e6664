import ZonePropagation.Proofs.Message.Scan
import ZonePropagation.Proofs.Message.Succession
/-!
Reading a message keeps inside it.

Each reader has a scan with the same outcome, and these scans are sound.
-/

namespace ZonePropagation

open Scan (look octet uint16 uint32 slice)

/-! ### Scans -/

namespace Name

def scanRest (message : Octets) (position pointers room : Nat) : Scan (List String × Nat) := do
  let first ← octet message position
  if first &&& 0xC0 == 0xC0 then
    let second ← octet message (position + 1)
    match pointers with
    | 0 => .fail .compressionLoop
    | fewer + 1 =>
        let (labels, _) ← scanRest message (pointerTarget first second) fewer room
        return (labels, position + 2)
  else if first &&& 0xC0 != 0 then .fail .label
  else if first.toNat = 0 then return ([], position + 1)
  else
    let octets ← slice message (position + 1) first.toNat
    if _fits : first.toNat + 1 ≤ room then
      match Octets.text? octets with
      | none => .fail .label
      | some label =>
          let (labels, next) ← scanRest message (position + 1 + first.toNat) pointers
            (room - (first.toNat + 1))
          return (label :: labels, next)
    else .fail .label
termination_by (pointers, room)

def scan (message : Octets) (position : Nat) : Scan (List String × Nat) :=
  scanRest message position maxPointers maxNameOctets

end Name

def Header.scan (octets : Octets) (offset : Nat) : Scan (Header × Nat) := do
  let header ← (look offset (offset + size) (read? octets offset)).mapError fun _ => .header
  return (header, offset + size)

def Question.scan (octets : Octets) (offset : Nat) : Scan (Question × Nat) := do
  let (labels, after) ← Name.scan octets offset
  let type ← uint16 octets after
  let recordClass ← uint16 octets (after + 2)
  return ({ labels, type := ⟨type⟩, recordClass := ⟨recordClass⟩ }, after + 4)

def Authority.scan (octets : Octets) (offset : Nat) : Scan (Authority × Nat) := do
  let (mname, afterFirst) ← Name.scan octets offset
  let (rname, after) ← Name.scan octets afterFirst
  let serial ← uint32 octets after
  let refresh ← uint32 octets (after + 4)
  let retry ← uint32 octets (after + 8)
  let expire ← uint32 octets (after + 12)
  let minimum ← uint32 octets (after + 16)
  return ({ mname, rname, serial, refresh, retry, expire, minimum }, after + 20)

def RecordData.scan (octets : Octets) (type : RecordType) (start stop : Nat) : Scan RecordData :=
  if type = .soa then do
    let (authority, consumed) ← Authority.scan octets start
    if consumed = stop then return .soa authority else .fail .answerSection
  else do
    let data ← Scan.extract octets start stop
    return .raw data.toList

def ResourceRecord.scan (octets : Octets) (offset : Nat) : Scan (ResourceRecord × Nat) := do
  let (labels, after) ← Name.scan octets offset
  let type ← uint16 octets after
  let recordClass ← uint16 octets (after + 2)
  let ttl ← uint32 octets (after + 4)
  let length ← uint16 octets (after + 8)
  let stop := after + 10 + length.toNat
  if stop > octets.size then .fail .truncated
  else
    let data ← RecordData.scan octets ⟨type⟩ (after + 10) stop
    return ({ labels, type := ⟨type⟩, recordClass := ⟨recordClass⟩, ttl, data }, stop)

def scanQuestion (octets : Octets) (offset : Nat) : Scan (Question × Nat) :=
  (Question.scan octets offset).mapError fun _ => .questionSection

def scanRecord (invalid : MessageError) (octets : Octets) (offset : Nat) :
    Scan (ResourceRecord × Nat) :=
  (ResourceRecord.scan octets offset).mapError invalid.inSection

def Message.scan (octets : Octets) : Scan Message := do
  let (header, offset) ← Header.scan octets 0
  let (questions, offset) ← Scan.many (scanQuestion octets) header.qdcount.toNat offset []
  let (answers, offset) ←
    Scan.many (scanRecord .answerSection octets) header.ancount.toNat offset []
  let (authorities, offset) ←
    Scan.many (scanRecord .authoritySection octets) header.nscount.toNat offset []
  let (additionals, _) ←
    Scan.many (scanRecord .additionalSection octets) header.arcount.toNat offset []
  return { header, questions, answers, authorities, additionals }

/-! ### Outcomes -/

theorem Name.outcome_scanRest (message : Octets) (position pointers room : Nat) :
    (scanRest message position pointers room).outcome =
      readRest message position pointers room := by
  rw [scanRest, readRest, Scan.outcome_bind, octet]
  cases message[position]? with
  | none => rfl
  | some first =>
      rw [Scan.outcome_found, ok_bind]
      dsimp only
      split
      · rw [Scan.outcome_bind, octet]
        cases message[position + 1]? with
        | none => rfl
        | some second =>
            cases pointers with
            | zero => rfl
            | succ fewer =>
                rw [Scan.outcome_found, ok_bind]
                dsimp only
                rw [Scan.outcome_bind, outcome_scanRest]
                cases readRest message (pointerTarget first second) fewer room <;> rfl
      split
      · rfl
      split
      · rfl
      rw [Scan.outcome_bind, slice]
      cases Octets.slice? message (position + 1) first.toNat with
      | none => rfl
      | some octets =>
          rw [Scan.outcome_found, ok_bind]
          dsimp only
          split
          · cases Octets.text? octets with
            | none => rfl
            | some label =>
                dsimp only
                rw [Scan.outcome_bind, outcome_scanRest]
                cases readRest message (position + 1 + first.toNat) pointers
                  (room - (first.toNat + 1)) <;> rfl
          · rfl
termination_by (pointers, room)

@[simp] theorem Name.outcome_scan (message : Octets) (position : Nat) :
    (scan message position).outcome = read message position :=
  outcome_scanRest message position maxPointers maxNameOctets

@[simp] theorem Header.outcome_scan (octets : Octets) (offset : Nat) :
    (scan octets offset).outcome = read octets offset := by
  unfold scan read
  cases found : read? octets offset with
  | none => simp [look, Except.mapError]
  | some header => simp [look, Except.mapError]

@[simp] theorem Question.outcome_scan (octets : Octets) (offset : Nat) :
    (scan octets offset).outcome = read octets offset := by
  simp only [scan, read, Scan.outcome_bind, Name.outcome_scan, Scan.outcome_uint16,
    Scan.outcome_pure]
  rfl

@[simp] theorem Authority.outcome_scan (octets : Octets) (offset : Nat) :
    (scan octets offset).outcome = read octets offset := by
  simp only [scan, read, Scan.outcome_bind, Name.outcome_scan, Scan.outcome_uint32,
    Scan.outcome_pure]
  rfl

@[simp] theorem RecordData.outcome_scan (octets : Octets) (type : RecordType) (start stop : Nat) :
    (scan octets type start stop).outcome = read octets type start stop := by
  unfold scan read
  split
  · simp only [Scan.outcome_bind, Authority.outcome_scan]
    refine bind_congr fun part => ?_
    split <;> rfl
  · rfl

@[simp] theorem ResourceRecord.outcome_scan (octets : Octets) (offset : Nat) :
    (scan octets offset).outcome = read octets offset := by
  simp only [scan, read, Scan.outcome_bind, Name.outcome_scan, Scan.outcome_uint16,
    Scan.outcome_uint32]
  refine bind_congr fun part => bind_congr fun type => bind_congr fun recordClass =>
    bind_congr fun ttl => bind_congr fun length => ?_
  split
  · rfl
  · simp only [Scan.outcome_bind, RecordData.outcome_scan]
    rfl

@[simp] theorem outcome_scanQuestion (octets : Octets) (offset : Nat) :
    (scanQuestion octets offset).outcome = readQuestion octets offset := by
  rw [scanQuestion, Scan.outcome_mapError, Question.outcome_scan, readQuestion]

@[simp] theorem outcome_scanRecord (invalid : MessageError) (octets : Octets) (offset : Nat) :
    (scanRecord invalid octets offset).outcome = readRecord invalid octets offset := by
  rw [scanRecord, Scan.outcome_mapError, ResourceRecord.outcome_scan, readRecord]

theorem Message.outcome_scan (octets : Octets) : (scan octets).outcome = read octets := by
  simp only [scan, read, Scan.outcome_bind, Header.outcome_scan, Scan.outcome_pure,
    Scan.outcome_many (outcome_scanQuestion octets),
    Scan.outcome_many (outcome_scanRecord _ octets)]
  rfl

/-! ### Soundness -/

open Scan (Sound sound_pure sound_fail sound_octet sound_uint16 sound_uint32)

variable {message : Octets}

theorem Name.sound_scanRest (position pointers room : Nat) :
    Sound message fun octets => scanRest octets position pointers room := by
  conv => arg 2; ext octets; rw [scanRest]
  refine (sound_octet position).bind fun first _ => ?_
  refine .ite (fun pointer => ?_) fun plain => ?_
  · refine (sound_octet (position + 1)).bind fun second _ => ?_
    cases pointers with
    | zero => exact sound_fail _
    | succ fewer =>
        refine (sound_scanRest (pointerTarget first second) fewer room).bind fun rest _ => ?_
        exact sound_pure _
  refine .ite (fun reserved => sound_fail _) fun unflagged => ?_
  refine .ite (fun empty => sound_pure _) fun nonempty => ?_
  refine (Scan.sound_slice (position + 1) first.toNat).bind fun octets _ => ?_
  by_cases fits : first.toNat + 1 ≤ room
  · simp only [dif_pos fits]
    cases Octets.text? octets with
    | none => exact sound_fail _
    | some label =>
        refine (sound_scanRest (position + 1 + first.toNat) pointers
          (room - (first.toNat + 1))).bind fun rest _ => ?_
        exact sound_pure _
  · simp only [dif_neg fits]
    exact sound_fail _
termination_by (pointers, room)

theorem Name.sound_scan (position : Nat) : Sound message fun octets => scan octets position :=
  sound_scanRest position maxPointers maxNameOctets

theorem Header.read?_of_same {other : Octets} {offset : Nat}
    (same : Stretch.Same message other { start := offset, stop := offset + size }) :
    read? other offset = read? message offset := by
  have number (place : Nat) (within : place + 2 ≤ size) :
      Octets.uint16At? other (offset + place) = Octets.uint16At? message (offset + place) :=
    Scan.uint16At?_of_same same (by omega) (by omega)
  have octet (place : Nat) (within : place < size) :
      other[offset + place]? = message[offset + place]? :=
    same (offset + place) (by dsimp only; omega) (by dsimp only; omega)
  have first : Octets.uint16At? other offset = Octets.uint16At? message offset :=
    number 0 (by decide)
  unfold read?
  rw [first, octet 2 (by decide), octet 3 (by decide), number 4 (by decide),
    number 6 (by decide), number 8 (by decide), number 10 (by decide)]

theorem Header.sound_scan (offset : Nat) : Sound message fun octets => scan octets offset := by
  have sound : Sound message fun octets => look offset (offset + size) (read? octets offset) := by
    refine Scan.sound_look (Nat.le_add_right offset size) (fun header found => ?_)
      fun other _ same => ?_
    · have atOffset : read message offset = .ok (header, offset + size) := by rw [read, found]
      exact (read_advances _ _ _ _ atOffset).2
    · exact read?_of_same same
  refine (sound.mapError fun _ => .header).bind fun header _ => ?_
  exact sound_pure _

theorem Question.sound_scan (offset : Nat) : Sound message fun octets => scan octets offset := by
  refine (Name.sound_scan offset).bind fun name _ => ?_
  refine (sound_uint16 name.2).bind fun type _ => ?_
  refine (sound_uint16 (name.2 + 2)).bind fun recordClass _ => ?_
  exact sound_pure _

theorem Authority.sound_scan (offset : Nat) : Sound message fun octets => scan octets offset := by
  refine (Name.sound_scan offset).bind fun first _ => ?_
  refine (Name.sound_scan first.2).bind fun second _ => ?_
  refine (sound_uint32 second.2).bind fun serial _ => ?_
  refine (sound_uint32 (second.2 + 4)).bind fun refresh _ => ?_
  refine (sound_uint32 (second.2 + 8)).bind fun retry _ => ?_
  refine (sound_uint32 (second.2 + 12)).bind fun expire _ => ?_
  refine (sound_uint32 (second.2 + 16)).bind fun minimum _ => ?_
  exact sound_pure _

/-- The octets of data are taken without a look, so they have to be known to be inside. -/
theorem RecordData.sound_scan (type : RecordType) {start stop : Nat} (ordered : start ≤ stop)
    (inside : stop ≤ message.size) : Sound message fun octets => scan octets type start stop := by
  refine .ite (fun isSoa => ?_) fun other => ?_
  · refine (Authority.sound_scan start).bind fun part _ => ?_
    exact .ite (fun same => sound_pure _) fun different => sound_fail _
  · refine (Scan.sound_extract ordered inside).bind fun data _ => ?_
    exact sound_pure _

theorem ResourceRecord.sound_scan (offset : Nat) :
    Sound message fun octets => scan octets offset := by
  refine (Name.sound_scan offset).bind fun name _ => ?_
  refine (sound_uint16 name.2).bind fun type _ => ?_
  refine (sound_uint16 (name.2 + 2)).bind fun recordClass _ => ?_
  refine (sound_uint32 (name.2 + 4)).bind fun ttl _ => ?_
  refine (sound_uint16 (name.2 + 8)).bind fun length _ => ?_
  refine .behind fun inside => ?_
  refine (RecordData.sound_scan ⟨type⟩ (Nat.le_add_right _ _) inside).bind fun data _ => ?_
  exact sound_pure _

theorem sound_scanRecords (invalid : MessageError) (count offset : Nat) :
    Sound message fun octets => Scan.many (scanRecord invalid octets) count offset [] :=
  .many (fun offset => (ResourceRecord.sound_scan offset).mapError _) count offset []

/-- Whatever the message is, accepted or not, its scan is sound. -/
theorem Message.sound_scan (message : Octets) : Sound message scan := by
  refine (Header.sound_scan 0).bind fun header _ => ?_
  refine (Sound.many (fun offset => (Question.sound_scan offset).mapError _) _ _ []).bind
    fun questions _ => ?_
  refine (sound_scanRecords .answerSection _ _).bind fun answers _ => ?_
  refine (sound_scanRecords .authoritySection _ _).bind fun authorities _ => ?_
  refine (sound_scanRecords .additionalSection _ _).bind fun additionals _ => ?_
  exact sound_pure _

/-! ### Messages -/

namespace Message

private theorem section_of_readMany {α : Type} {readOne : Nat → Except MessageError (α × Nat)}
    {count : UInt16} {start stop : Nat} {parts : List α}
    (found : readMany readOne count.toNat start [] = .ok (parts, stop)) :
    Successive readOne start parts stop ∧ parts.length = count.toNat := by
  obtain ⟨later, rfl, length, successive⟩ := successive_of_readMany found
  exact ⟨successive, length⟩

/-- The questions and the records of a message that is read follow its header one after the other,
as many of each as the header announces. -/
theorem successive_of_read {received : Octets} {message : Message}
    (found : read received = .ok message) :
    (∃ asked last, Header.read received 0 = .ok (message.header, 12) ∧
      Successive (Question.read received) 12 message.questions asked ∧
      Successive (ResourceRecord.read received) asked
        (message.answers ++ message.authorities ++ message.additionals) last) ∧
    message.questions.length = message.header.qdcount.toNat ∧
    message.answers.length = message.header.ancount.toNat ∧
    message.authorities.length = message.header.nscount.toNat ∧
    message.additionals.length = message.header.arcount.toNat := by
  obtain ⟨first, second, third, fourth, last, header, questions, answers, authorities,
    additionals⟩ := read_eq_ok_iff.mp found
  obtain ⟨-, -, atFirst⟩ := Header.holds_of_read header
  have first_eq : first = 12 := atFirst
  subst first_eq
  obtain ⟨questions, questionCount⟩ := section_of_readMany questions
  obtain ⟨answers, answerCount⟩ := section_of_readMany answers
  obtain ⟨authorities, authorityCount⟩ := section_of_readMany authorities
  obtain ⟨additionals, additionalCount⟩ := section_of_readMany additionals
  have eachRecord (invalid : MessageError) (offset : Nat) (result : ResourceRecord × Nat)
      (here : readRecord invalid received offset = .ok result) :
      ResourceRecord.read received offset = .ok result := mapError_eq_ok_iff.mp here
  refine ⟨⟨second, last, header, questions.imp fun _ _ => mapError_eq_ok_iff.mp, ?_⟩, questionCount,
    answerCount, authorityCount, additionalCount⟩
  exact ((answers.imp (eachRecord _)).append (authorities.imp (eachRecord _))).append
    (additionals.imp (eachRecord _))

/-- Reading a message takes nothing outside it, and rests on nothing but what it takes.  After the
header, each question and each record begins where the one before it ended, and there are as many of
them as the header announces; a record ends with the data that it announces.  Every reader goes on
by the octets that its part has at least, none of them outside, and so the message has room for all.
-/
theorem read_in_order {received : Octets} {message : Message}
    (found : read received = .ok message) :
    ((scan received).outcome = .ok message ∧
      (∀ stretch ∈ (scan received).taken, stretch.Inside received) ∧
      ∀ other : Octets, other.size = received.size →
        (∀ stretch ∈ (scan received).taken, stretch.Same received other) →
          read other = .ok message) ∧
    (∃ asked last, Header.read received 0 = .ok (message.header, 12) ∧
      Successive (Question.read received) 12 message.questions asked ∧
      Successive (ResourceRecord.read received) asked
        (message.answers ++ message.authorities ++ message.additionals) last) ∧
    (∀ record start stop, ResourceRecord.read received start = .ok (record, stop) →
      record.Fills received start stop) ∧
    (Advances 12 Header.read ∧ Advances 1 Name.read ∧ Advances 5 Question.read ∧
      Advances 22 Authority.read ∧ Advances 11 ResourceRecord.read) ∧
    (message.questions.length = message.header.qdcount.toNat ∧
      message.answers.length = message.header.ancount.toNat ∧
      message.authorities.length = message.header.nscount.toNat ∧
      message.additionals.length = message.header.arcount.toNat) ∧
    12 + 5 * message.header.qdcount.toNat + 11 * (message.header.ancount.toNat +
      message.header.nscount.toNat + message.header.arcount.toNat) ≤ received.size := by
  have sound := sound_scan received
  have scanned : (scan received).outcome = .ok message := by rw [outcome_scan, found]
  obtain ⟨⟨asked, last, header, questions, records⟩, counts⟩ := successive_of_read found
  refine ⟨⟨scanned, sound.inside message scanned, fun other size same => ?_⟩,
    ⟨asked, last, header, questions, records⟩,
    fun record start stop here => ResourceRecord.fills_of_read here,
    ⟨Header.read_advances, Name.read_advances, Question.read_advances, Authority.read_advances,
      ResourceRecord.read_advances⟩, counts, ?_⟩
  · rw [← outcome_scan, sound.determined other size same, scanned]
  · obtain ⟨questionCount, answerCount, authorityCount, additionalCount⟩ := counts
    obtain ⟨-, inside⟩ := Header.read_advances _ _ _ _ header
    obtain ⟨wide, inside⟩ := questions.bounds Question.read_advances inside
    obtain ⟨wider, inside⟩ := records.bounds ResourceRecord.read_advances inside
    rw [List.length_append, List.length_append] at wider
    omega

/-- An answer whose names continue in its question, with two octets after its end. -/
theorem read_in_order_compressed :
    let received : Octets := #[
      0, 9, 128, 0, 0, 1, 0, 1, 0, 0, 0, 0,
      1, 122, 0, 0, 6, 0, 1,
      192, 12, 0, 6, 0, 1, 0, 0, 0, 60, 0, 26,
      2, 110, 115, 192, 12, 0, 0, 0, 0, 10, 0, 0, 0, 1, 0, 0, 0, 2, 0, 0, 0, 3, 0, 0, 0, 4,
      192, 12]
    let message : Message := {
      header := { id := 9, qr := true, qdcount := 1, ancount := 1 }
      questions := [{ labels := ["z"], type := .soa, recordClass := .internet }]
      answers := [{
        labels := ["z"], type := .soa, recordClass := .internet, ttl := 60
        data := .soa {
          mname := ["ns", "z"], rname := [], serial := 10, refresh := 1, retry := 2, expire := 3
          minimum := 4 } }] }
    read received = .ok message ∧ (∀ stretch ∈ (scan received).taken, stretch.Inside received) ∧
      (∃ asked last, Successive (Question.read received) 12 message.questions asked ∧
        Successive (ResourceRecord.read received) asked message.answers last) ∧
      12 + 5 * 1 + 11 * 1 ≤ received.size := by
  intro received message
  have found : read received = .ok message := by cbv
  obtain ⟨⟨-, inside, -⟩, ⟨asked, last, -, questions, records⟩, -, -, -, room⟩ :=
    read_in_order found
  exact ⟨found, inside, ⟨asked, last, questions, records⟩, room⟩

end Message

end ZonePropagation
