import ZonePropagation.Proofs.Message.Owners
import ZonePropagation.Proofs.Probe.Attempts
/-!
Which answers give a serial.

A question for the serial of a zone is settled by the octets that its last exchange receives.  It
gives a serial just if these are a message that responds to the question, without error and with
authority, in which a start of authority has an owner of the zone's name; the serial is that of the
first one.  Whatever else is received, or nothing at all, gives no serial and is no success.
-/

namespace ZonePropagation

/-! ### Response codes -/

namespace ResponseCode

theorem ofCode?_eq_some_iff {value : UInt8} {meaning : ResponseCode} :
    ofCode? value = some meaning ↔ value = meaning.code := by
  constructor
  · intro found
    unfold ofCode? at found
    have same := List.find?_some found
    exact (beq_iff_eq.mp same).symm
  · rintro rfl
    cases meaning <;> rfl

theorem meansNoZone_iff (meaning : ResponseCode) :
    meaning.meansNoZone = true ↔ meaning ∈ [nameError, refused, serverFailure] := by
  cases meaning <;> decide

end ResponseCode

/-! ### Responses to a request -/

namespace Message

/-- The message is a response with the id and the operation of the request, and its first question,
if it has one, is the request's. -/
structure RespondsTo (message request : Message) : Prop where
  isResponse : message.header.qr = true
  id : message.header.id = request.header.id
  opcode : message.header.opcode = request.header.opcode
  question : ∀ got ∈ message.questions.head?, ∀ asked ∈ request.questions.head?,
    got.type = asked.type ∧ Name.sameName (Name.text got.labels) (Name.text asked.labels) = true

structure Attests (message : Message) (zone : String) (serial : UInt32) : Prop where
  noError : message.header.rcode = 0
  authoritative : message.header.aa = true
  first : ∃ record, message.IsFirst (ResourceRecord.NamesZone zone) record ∧
    record.serial? = some serial

variable {message request : Message}

theorem sameQuestion_iff : message.sameQuestion request = true ↔
    ∀ got ∈ message.questions.head?, ∀ asked ∈ request.questions.head?,
      got.type = asked.type ∧
        Name.sameName (Name.text got.labels) (Name.text asked.labels) = true := by
  unfold sameQuestion
  cases message.questions.head? with
  | none => simp
  | some got =>
    cases request.questions.head? with
    | none => simp
    | some asked => simp

theorem answersRequest_iff : message.answersRequest request = true ↔ message.RespondsTo request := by
  unfold answersRequest
  rw [Bool.and_eq_true, Bool.and_eq_true, Bool.and_eq_true, beq_iff_eq, beq_iff_eq,
    sameQuestion_iff]
  constructor
  · rintro ⟨⟨⟨isResponse, id⟩, opcode⟩, question⟩
    exact ⟨isResponse, id, opcode, question⟩
  · rintro ⟨isResponse, id, opcode, question⟩
    exact ⟨⟨⟨isResponse, id⟩, opcode⟩, question⟩

end Message

namespace Outcome

variable {request response : Message}

theorem ofResponse_eq_ok_iff : ofResponse request response = .ok ↔
    response.RespondsTo request ∧ response.header.rcode = 0 ∧ response.header.aa = true := by
  unfold ofResponse
  split
  · next matching =>
    rw [and_iff_right (Message.answersRequest_iff.mp matching)]
    have meaning : response.responseCode? = some .noError ↔ response.header.rcode = 0 :=
      ResponseCode.ofCode?_eq_some_iff
    split
    · next noError =>
      rw [and_iff_right (meaning.mp noError)]
      cases response.header.aa <;> simp
    · next code other found =>
      refine iff_of_false (by split <;> simp) fun both => other ?_
      exact Option.some.inj (found.symm.trans (meaning.mpr both.1))
    · next unknown =>
      refine iff_of_false (by simp) fun both => ?_
      rw [meaning.mpr both.1] at unknown
      cases unknown
  · next mismatch =>
    exact iff_of_false (by simp) fun all => mismatch (Message.answersRequest_iff.mpr all.1)

theorem ofResponse_eq_noDomain_iff {code : ResponseCode} :
    ofResponse request response = .noDomain code ↔
      response.RespondsTo request ∧ response.header.rcode = code.code ∧
        code ∈ [.nameError, .refused, .serverFailure] := by
  rw [← ResponseCode.meansNoZone_iff, ← ResponseCode.ofCode?_eq_some_iff]
  change _ ↔ _ ∧ response.responseCode? = some code ∧ _
  unfold ofResponse
  split
  · next matching =>
    rw [and_iff_right (Message.answersRequest_iff.mp matching)]
    split
    · next noError =>
      rw [noError]
      refine iff_of_false (by split <;> simp) ?_
      rintro ⟨same, noZone⟩
      cases same
      cases noZone
    · next found _ meaning =>
      rw [meaning, Option.some.injEq]
      split
      · next noZone =>
        rw [Outcome.noDomain.injEq]
        exact ⟨fun same => ⟨same, same ▸ noZone⟩, fun both => both.1⟩
      · next another =>
        refine iff_of_false (by simp) ?_
        rintro ⟨rfl, noZone⟩
        exact another noZone
    · next unknown =>
      rw [unknown]
      simp
  · next mismatch =>
    exact iff_of_false (by simp) fun all => mismatch (Message.answersRequest_iff.mpr all.1)

end Outcome

/-! ### What an exchange receives -/

namespace Client

def receive {m : Type → Type} [Monad m] (client : Client) (net : Transport m) (request : Message)
    (server : Nameserver) (wait : Nat) : m (Option (Except Breakage Octets)) := do
  match client.encode? request server (← net.seconds) with
  | none => return none
  | some octets =>
      net.start wait
      return some (← client.deliver net server request.header.id octets)

def judgeReceived (request : Message) :
    Option (Except Breakage Octets) → Outcome × Option Message
  | none => (.malformed, none)
  | some (.error cause) => (cause.outcome, none)
  | some (.ok octets) => judge request octets

def octets? : Option (Except Breakage Octets) → Option Octets
  | some (.ok octets) => some octets
  | _ => none

theorem exchange_eq {m : Type → Type} [Monad m] [LawfulMonad m] (client : Client)
    (net : Transport m) (request : Message) (server : Nameserver) (wait : Nat) :
    client.exchange net request server wait =
      judgeReceived request <$> client.receive net request server wait := by
  unfold exchange receive
  rw [map_bind]
  congr 1
  funext time
  cases client.encode? request server time with
  | none => simp [judgeReceived]
  | some octets =>
    simp only [map_bind, map_pure]
    congr 1
    funext _
    congr 1
    funext answer
    cases answer <;> rfl

theorem exchange_run {σ : Type} (client : Client) (net : Transport (StateM σ)) (request : Message)
    (server : Nameserver) (wait : Nat) (state : σ) :
    ((client.exchange net request server wait).run state).1 =
      judgeReceived request ((client.receive net request server wait).run state).1 := by
  rw [exchange_eq]
  rfl

end Client

/-! ### Probes for a serial -/

namespace Probe

/-- What was received is a message that responds to the request, and says that the zone has the
serial. -/
def Trustworthy (request : Message) (zone : String) (received : Option Octets)
    (serial : UInt32) : Prop :=
  ∃ octets message, received = some octets ∧ Message.read octets = .ok message ∧
    message.RespondsTo request ∧ message.Attests zone serial

structure RestsOn (request : Message) (zone : String) (received : Option Octets) (probe : Probe) :
    Prop where
  serial : ∀ serial, probe.outcome = .ok ∧ probe.serial = some serial ↔
    Trustworthy request zone received serial
  otherwise : (∀ serial, ¬Trustworthy request zone received serial) →
    probe.outcome ≠ .ok ∧ probe.serial = none
  noDomain : ∀ code, probe.outcome = .noDomain code ↔ ∃ octets message, received = some octets ∧
    Message.read octets = .ok message ∧ message.RespondsTo request ∧
    message.header.rcode = code.code ∧ code ∈ [.nameError, .refused, .serverFailure]

variable {request : Message} {zone : String} {attempts : Nat}

theorem restsOn_of_nothing {received : Option Octets} {outcome : Outcome}
    (failed : outcome ≠ .ok) (unruled : ∀ code, outcome ≠ .noDomain code)
    (illegible : ∀ octets message, received = some octets → Message.read octets ≠ .ok message) :
    (ofSerialQuery zone outcome none attempts).RestsOn request zone received := by
  unfold ofSerialQuery
  rw [if_neg failed]
  refine ⟨fun serial => iff_of_false (fun both => failed both.1) ?_, fun _ => ⟨failed, rfl⟩,
    fun code => iff_of_false (unruled code) ?_⟩
  · rintro ⟨octets, message, arrived, found, -⟩
    exact illegible octets message arrived found
  · rintro ⟨octets, message, arrived, found, -⟩
    exact illegible octets message arrived found

theorem restsOn_of_read {octets : Octets} {message : Message}
    (found : Message.read octets = .ok message) :
    (ofSerialQuery zone (Outcome.ofResponse request message) (some message) attempts).RestsOn request
      zone (some octets) := by
  have only (holds : Message → Prop) : (∃ others other, some octets = some others ∧
      Message.read others = .ok other ∧ holds other) ↔ holds message := by
    constructor
    · rintro ⟨others, other, same, alsoFound, held⟩
      cases same
      rw [found, Except.ok.injEq] at alsoFound
      exact alsoFound ▸ held
    · exact fun held => ⟨octets, message, rfl, found, held⟩
  have trusted (serial : UInt32) : Trustworthy request zone (some octets) serial ↔
      Outcome.ofResponse request message = .ok ∧ message.soaSerial? zone = some serial := by
    rw [Trustworthy, only, Outcome.ofResponse_eq_ok_iff, Message.soaSerial?_eq_some_iff found]
    constructor
    · rintro ⟨responds, noError, authoritative, first⟩
      exact ⟨⟨responds, noError, authoritative⟩, first⟩
    · rintro ⟨⟨responds, noError, authoritative⟩, first⟩
      exact ⟨responds, noError, authoritative, first⟩
  have ruled (code : ResponseCode) := only fun other => other.RespondsTo request ∧
    other.header.rcode = code.code ∧ code ∈ [.nameError, .refused, .serverFailure]
  unfold ofSerialQuery
  rw [Option.bind_some]
  by_cases ok : Outcome.ofResponse request message = .ok
  · rw [if_pos ok]
    cases given : message.soaSerial? zone with
    | none =>
      refine ⟨fun serial => ?_, fun _ => ⟨by simp, rfl⟩, fun code => ?_⟩
      · rw [trusted, given]
        simp
      · rw [ruled, ← Outcome.ofResponse_eq_noDomain_iff, ok]
        simp
    | some serial =>
      refine ⟨fun other => ?_, fun untrusted => ?_, fun code => ?_⟩
      · rw [trusted, given, ok]
      · exact absurd ((trusted serial).mpr ⟨ok, given⟩) (untrusted serial)
      · rw [ruled, ← Outcome.ofResponse_eq_noDomain_iff, ok]
  · rw [if_neg ok]
    refine ⟨fun serial => ?_, fun _ => ⟨ok, rfl⟩, fun code => ?_⟩
    · rw [trusted]
      exact iff_of_false (fun both => ok both.1) fun both => ok both.1
    · rw [ruled, ← Outcome.ofResponse_eq_noDomain_iff]

theorem restsOn_of_received (received : Option (Except Breakage Octets)) :
    (ofSerialQuery zone (Client.judgeReceived request received).1
      (Client.judgeReceived request received).2 attempts).RestsOn request zone
        (Client.octets? received) := by
  match received with
  | none => exact restsOn_of_nothing nofun nofun nofun
  | some (.error cause) =>
    rw [Client.judgeReceived]
    refine restsOn_of_nothing ?_ ?_ nofun
    · cases cause <;> exact nofun
    · cases cause <;> exact nofun
  | some (.ok octets) =>
    rw [Client.judgeReceived, Client.judge, Client.octets?]
    cases found : Message.read octets with
    | error cause =>
      refine restsOn_of_nothing (by simp) (by simp) fun others message same alsoFound => ?_
      cases same
      rw [found] at alsoFound
      cases alsoFound
    | ok message => exact restsOn_of_read found

end Probe

/-- Whatever octets are received in answer to a question for the serial of a zone, the result rests
on them; and the result of a client, over any transport, rests on what its last exchange receives. -/
theorem serial_iff_trustworthy {σ : Type} (client : Client) (net : Transport (StateM σ))
    (zone : String) :
    (∀ (id : UInt16) (octets : Octets) (attempts : Nat),
      let request := Message.soaQuery id zone
      let judged := Client.judge request octets
      (Probe.ofSerialQuery zone judged.1 judged.2 attempts).RestsOn request zone (some octets)) ∧
    ∀ (server : Nameserver) (options : ProbeOptions) (before : σ),
      let request := Message.soaQuery (net.freshId.run before).1 zone
      let exchange := client.exchange net request server options.timeout
      let receive := client.receive net request server options.timeout
      let probe := ((client.querySerial net zone server options).run before).1
      ∃ last, probe.attempts = last + 1 ∧
        let lastBefore := Client.stateBefore exchange (net.pause options.retryInterval)
          (net.freshId.run before).2 last
        probe.RestsOn request zone (Client.octets? (receive.run lastBefore).1) := by
  refine ⟨fun id octets attempts => Probe.restsOn_of_received (some (.ok octets)), ?_⟩
  intro server options before request exchange receive probe
  obtain ⟨last, -, ends⟩ := client.settle_eq net request server options (net.freshId.run before).2
  have probed : probe = _ := client.querySerial_run net zone server options before
  rw [ends] at probed
  dsimp only at probed
  rw [Client.attemptAt, Client.exchange_run] at probed
  rw [probed]
  exact ⟨last, Probe.ofSerialQuery_attempts _ _ _ _, Probe.restsOn_of_received _⟩

end ZonePropagation
