import ZonePropagation.Probe.Script
import ZonePropagation.Proofs.Message.RoundTrip
import ZonePropagation.Proofs.Probe.Trust
/-!
Zones that are received in a sequence of messages.

Messages of a transfer are taken in turn, and the records in each of them in turn.  What comes of it
is a matter of the records and of how the connection ends, wherever messages begin and end among
them: the records before the second start of authority if the first record is one, and a failure
if there is no such second one.
-/

namespace ZonePropagation

namespace Transfer

/-- The octets are a message that belongs to the transfer, with these records and at least one. -/
def Carries (request : Message) (octets : Octets) (records : List ResourceRecord) : Prop :=
  ∃ message, Message.read octets = .ok message ∧ message.RespondsTo request ∧
    message.header.rcode = 0 ∧ message.answers = records ∧ records ≠ []

def Splits (request : Message) (messages : List Octets) (records : List ResourceRecord) : Prop :=
  ∃ parts, List.Forall₂ (Carries request) messages parts ∧ parts.flatten = records

def IsWhole (records kept : List ResourceRecord) : Prop :=
  ∃ first between last rest, records = first :: between ++ last :: rest ∧ first.type = .soa ∧
    (∀ record ∈ between, record.type ≠ .soa) ∧ last.type = .soa ∧ kept = first :: between

def result (ending : Breakage) : Transfer → Except Fault (List ResourceRecord)
  | .complete records => .ok records
  | .failed cause => .error cause
  | _ => .error ending.fault

/-! ### Records in turn -/

theorem foldl_takeRecord_of_isOver {transfer : Transfer} (ended : transfer.isOver = true)
    (records : List ResourceRecord) : records.foldl takeRecord transfer = transfer := by
  induction records with
  | nil => rfl
  | cons record rest ih =>
      have stays : transfer.takeRecord record = transfer := by
        cases transfer with
        | opening | receiving _ => cases ended
        | complete _ | failed _ => rfl
      rw [List.foldl_cons, stays, ih]

theorem takeRecord_receiving (received : List ResourceRecord) (record : ResourceRecord) :
    takeRecord (.receiving received) record =
      if record.type = .soa then .complete received.reverse else .receiving (record :: received) :=
  rfl

theorem result_receiving_iff {ending : Breakage} {received records kept : List ResourceRecord} :
    result ending (records.foldl takeRecord (.receiving received)) = .ok kept ↔
      ∃ between last rest, records = between ++ last :: rest ∧
        (∀ record ∈ between, record.type ≠ .soa) ∧ last.type = .soa ∧
          kept = received.reverse ++ between := by
  induction records generalizing received with
  | nil => simp [result]
  | cons record rest ih =>
      rw [List.foldl_cons, takeRecord_receiving]
      by_cases closing : record.type = .soa
      · rw [if_pos closing, foldl_takeRecord_of_isOver rfl, result, Except.ok.injEq]
        constructor
        · rintro rfl
          exact ⟨[], record, rest, rfl, by simp, closing, by simp⟩
        · rintro ⟨between, last, after, split, none, -, rfl⟩
          cases between with
          | nil => simp
          | cons first between =>
              obtain ⟨rfl, -⟩ := List.cons_eq_cons.mp split
              exact absurd closing (none record (by simp))
      · rw [if_neg closing, ih]
        constructor
        · rintro ⟨between, last, after, rfl, none, closes, rfl⟩
          exact ⟨record :: between, last, after, rfl, by simpa [closing] using none, closes,
            by simp⟩
        · rintro ⟨between, last, after, split, none, closes, rfl⟩
          cases between with
          | nil =>
              obtain ⟨rfl, -⟩ := List.cons_eq_cons.mp split
              exact absurd closes closing
          | cons first between =>
              obtain ⟨rfl, rfl⟩ := List.cons_eq_cons.mp split
              exact ⟨between, last, after, rfl, fun other member => none other (by simp [member]),
                closes, by simp⟩

theorem result_opening_iff {ending : Breakage} {records kept : List ResourceRecord} :
    result ending (records.foldl takeRecord .opening) = .ok kept ↔ IsWhole records kept := by
  unfold IsWhole
  cases records with
  | nil => simp [result]
  | cons record rest =>
      rw [List.foldl_cons]
      change result ending (rest.foldl takeRecord (if record.type = .soa then .receiving [record]
        else .failed _)) = _ ↔ _
      by_cases opens : record.type = .soa
      · rw [if_pos opens, result_receiving_iff]
        constructor
        · rintro ⟨between, last, after, rfl, none, closes, rfl⟩
          exact ⟨record, between, last, after, rfl, opens, none, closes, rfl⟩
        · rintro ⟨first, between, last, after, split, -, none, closes, rfl⟩
          obtain ⟨rfl, rfl⟩ := List.cons_eq_cons.mp split
          exact ⟨between, last, after, rfl, none, closes, rfl⟩
      · rw [if_neg opens, foldl_takeRecord_of_isOver rfl]
        refine iff_of_false nofun ?_
        rintro ⟨first, between, last, after, split, begins, -⟩
        obtain ⟨rfl, -⟩ := List.cons_eq_cons.mp split
        exact opens begins

/-! ### Messages in turn -/

variable {request : Message} {zone : String} {server : Nameserver}

theorem takeOctets_of_carries {octets : Octets} {records : List ResourceRecord}
    (carries : Carries request octets records) (transfer : Transfer) :
    transfer.takeOctets request zone server octets = records.foldl takeRecord transfer := by
  obtain ⟨message, found, responds, noError, rfl, some_⟩ := carries
  have accepted : refusal? request zone server message = none := by
    have meaning : message.responseCode? = some .noError :=
      ResponseCode.ofCode?_eq_some_iff.mpr noError
    unfold refusal?
    rw [Message.answersRequest_iff.mpr responds, meaning]
    simpa using some_
  unfold takeOctets
  rw [found]
  dsimp only
  unfold takeMessage
  rw [accepted]
  split
  · next ended => exact (foldl_takeRecord_of_isOver ended _).symm
  · rfl

theorem foldWanted_of_splits {messages : List Octets} {records : List ResourceRecord}
    (splits : Splits request messages records) {transfer : Transfer}
    (open_ : transfer.isOver = false) :
    ScriptedServer.foldWanted (fun transfer octets =>
        (transfer.takeOctets request zone server octets,
          !(transfer.takeOctets request zone server octets).isOver)) transfer messages =
      (records.foldl takeRecord transfer, (records.foldl takeRecord transfer).isOver) := by
  obtain ⟨parts, carried, rfl⟩ := splits
  induction carried generalizing transfer with
  | nil => simp [ScriptedServer.foldWanted, open_]
  | @cons octets part messages parts carries _ ih =>
      rw [ScriptedServer.foldWanted, takeOctets_of_carries carries, List.flatten_cons,
        List.foldl_append]
      dsimp only
      cases ended : (part.foldl takeRecord transfer).isOver with
      | false => exact ih ended
      | true =>
          rw [foldl_takeRecord_of_isOver ended, ended]
          rfl

end Transfer

/-! ### Connections -/

/-- Over a connection on which these octets are sent, the server sends the messages, and then the
connection breaks off. -/
def Transport.Sends {σ : Type} (net : Transport (StateM σ)) (server : Nameserver)
    (octets : List UInt8) (before : σ) (messages : List Octets) (ending : Breakage) : Prop :=
  ∀ ⦃τ : Type⦄ (start : τ) (step : τ → Octets → τ × Bool),
    ((net.session server octets start step).run before).1 =
      let (state, satisfied) := ScriptedServer.foldWanted step start messages
      (state, if satisfied then none else some ending)

namespace Client

def prepareTransfer {m : Type → Type} [Monad m] (client : Client) (net : Transport m)
    (zone : String) (server : Nameserver) (wait : Nat) : m (Message × Option (List UInt8)) := do
  let request := Message.axfrQuery (← net.freshId) zone
  match client.encode? request server (← net.seconds) with
  | none => return (request, none)
  | some octets =>
      net.start wait
      return (request, some octets)

theorem transferZone_eq {m : Type → Type} [Monad m] [LawfulMonad m] (client : Client)
    (net : Transport m) (zone : String) (server : Nameserver) (wait : Nat) :
    client.transferZone net zone server wait =
      client.prepareTransfer net zone server wait >>= fun (request, octets?) =>
        match octets? with
        | none => return .error (.parse "could not encode AXFR request")
        | some octets => do
            let (transfer, breakage) ← net.session server octets Transfer.opening
              fun transfer message =>
                let next := transfer.takeOctets request zone server message
                (next, !next.isOver)
            return transfer.result (breakage.getD .ended) := by
  unfold transferZone prepareTransfer
  rw [bind_assoc]
  congr 1
  funext id
  dsimp only
  rw [bind_assoc]
  congr 1
  funext time
  cases client.encode? (Message.axfrQuery id zone) server time with
  | none => simp
  | some octets =>
      simp only [bind_assoc, pure_bind]
      congr 1
      funext _
      congr 1
      funext (transfer, breakage)
      cases transfer <;> rfl

theorem transferZone_run {σ : Type} {client : Client} {net : Transport (StateM σ)} {zone : String}
    {server : Nameserver} {wait : Nat} {before later : σ} {request : Message}
    {octets : List UInt8} {messages : List Octets} {records : List ResourceRecord}
    {ending : Breakage}
    (prepared : (client.prepareTransfer net zone server wait).run before =
      ((request, some octets), later))
    (sends : net.Sends server octets later messages ending)
    (splits : Transfer.Splits request messages records) :
    ((client.transferZone net zone server wait).run before).1 =
      (records.foldl Transfer.takeRecord .opening).result ending := by
  have received := sends Transfer.opening fun transfer message =>
    (transfer.takeOctets request zone server message,
      !(transfer.takeOctets request zone server message).isOver)
  rw [Transfer.foldWanted_of_splits splits rfl] at received
  rw [transferZone_eq, StateT.run_bind, prepared]
  change Transfer.result
    (((net.session server octets Transfer.opening _).run later).1.2.getD .ended)
    ((net.session server octets Transfer.opening _).run later).1.1 = _
  rw [received]
  cases records.foldl Transfer.takeRecord .opening <;> rfl

end Client

namespace ScriptedServer

theorem messagesOf_framed {octets : List UInt8} (fits : octets.length < 65536)
    (rest : List UInt8) :
    messagesOf (Octets.ofUInt16 octets.length.toUInt16 ++ octets ++ rest) =
      octets.toArray :: messagesOf rest := by
  have size : (Octets.toUInt16 (octets.length.toUInt16 >>> 8).toUInt8
      octets.length.toUInt16.toUInt8).toNat = octets.length := by
    rw [Octets.toUInt16_octets]
    exact Nat.mod_eq_of_lt fits
  have within : octets.length ≤ (octets ++ rest).length := by
    rw [List.length_append]
    omega
  rw [Octets.ofUInt16, List.append_assoc, List.cons_append, List.cons_append, List.nil_append,
    messagesOf, size, if_pos within, List.take_left, List.drop_left]

theorem messagesOf_streamOf {request : Message} {sends : List ScriptedReply} (silent : Bool)
    (fit : ∀ send ∈ sends, (send.octetsFor request).length < 65536) :
    messagesOf (streamOf request { sends := sends.map (·, none), silent }) =
      sends.map fun send => (send.octetsFor request).toArray := by
  induction sends with
  | nil => simp [streamOf, messagesOf]
  | cons send rest ih =>
      obtain ⟨fits, fit⟩ := List.forall_mem_cons.mp fit
      rw [List.map_cons, List.map_cons, ← ih fit, ← messagesOf_framed fits]
      rfl

theorem transport_sends {address : Nameserver} {id : UInt16} {time : UInt64}
    {server : ScriptedServer} {octets : List UInt8} {sends : List ScriptedReply}
    {later : List ScriptedStep} (silent : Bool)
    (script : server.connections = some ({ sends := sends.map (·, none), silent } :: later))
    (fit : ∀ send ∈ sends, (send.octetsFor (understood octets)).length < 65536) :
    (transport address id time).Sends address octets server
      (sends.map fun send => (send.octetsFor (understood octets)).toArray)
      (if silent then .timedOut else .ended) := by
  intro τ start step
  rw [← messagesOf_streamOf silent fit]
  have turn : ((transport address id time).session address octets start step).run server =
      onConnection octets start step server := by
    simp only [transport, ↓reduceIte]
    rfl
  rw [turn, onConnection, script]
  rfl

end ScriptedServer

/-- What a transfer gives is the same however its records are split into messages: the records
before the second start of authority if the first record is one, and otherwise a failure. -/
theorem transfer_regardless_of_messages (records : List ResourceRecord) (ending : Breakage) :
    ∃ result, (∀ kept, result = .ok kept ↔ Transfer.IsWhole records kept) ∧
      ∀ {σ : Type} {client : Client} {net : Transport (StateM σ)} {zone : String}
        {server : Nameserver} {wait : Nat} {before later : σ} {request : Message}
        {octets : List UInt8} {messages : List Octets},
        (client.prepareTransfer net zone server wait).run before =
          ((request, some octets), later) →
        net.Sends server octets later messages ending →
        Transfer.Splits request messages records →
        ((client.transferZone net zone server wait).run before).1 = result :=
  ⟨(records.foldl Transfer.takeRecord .opening).result ending,
    fun _ => Transfer.result_opening_iff,
    fun prepared sends splits => Client.transferZone_run prepared sends splits⟩

theorem transfer_regardless_of_messages_address :
    let authority : ResourceRecord :=
      { labels := [], type := .soa, recordClass := .internet, ttl := 0, data := .soa {} }
    let address : ResourceRecord :=
      { labels := [], type := .a, recordClass := .internet, ttl := 0, data := .raw [192, 0, 2, 1] }
    let server : Nameserver := { host := "192.0.2.1", port := 53 }
    let transfer (parts : List (List ResourceRecord)) :=
      ((({} : Client).transferZone (ScriptedServer.transport server 9 0) "z." server 1000).run
        { connections := some [{ sends := parts.map fun answers =>
          (.response { header := { qr := true }, answers } none none 0, none) }] }).1
    transfer [[authority, address, authority, address]] = .ok [authority, address] ∧
      transfer [[authority], [address], [authority, address]] = .ok [authority, address] := by
  intro authority address server transfer
  obtain ⟨result, isWhole, same⟩ :=
    transfer_regardless_of_messages [authority, address, authority, address] .ended
  have kept : result = .ok [authority, address] := (isWhole _).mpr
    ⟨authority, [address], authority, [address], rfl, rfl, by decide +kernel, rfl, rfl⟩
  let request := Message.axfrQuery 9 "z."
  have encodable : request.Encodable := by decide +kernel
  obtain ⟨question, written, -, read⟩ := encodable.exists_write
  have understood : ScriptedServer.understood question = request.normalized := by
    rw [ScriptedServer.understood, read _ (Octets.holds_whole question)]
    rfl
  have prepared (before : ScriptedServer) : (({} : Client).prepareTransfer
      (ScriptedServer.transport server 9 0) "z." server 1000).run before =
        ((request, some question), before) := by
    have encoded : ({} : Client).encode? request server 0 = some question := by
      rw [Client.encode?, Client.key?, List.reverse_nil, List.find?_nil, Option.map_none]
      exact congrArg Except.toOption written
    simp only [Client.prepareTransfer, ScriptedServer.transport, pure_bind, request, encoded]
    rfl
  let reply (answers : List ResourceRecord) : ScriptedReply :=
    .response { header := { qr := true }, answers } none none 0
  let response (answers : List ResourceRecord) : Message :=
    { header := { id := 9, qr := true }, questions := request.normalized.questions, answers }
  have carries (answers : List ResourceRecord) (encodable : (response answers).Encodable)
      (plain : answers.map ResourceRecord.normalized = answers) (some_ : answers ≠ []) :
      Transfer.Carries request
        ((reply answers).octetsFor (ScriptedServer.understood question)).toArray answers := by
    obtain ⟨octets, sent, -, read⟩ := encodable.exists_write
    have spelled : (reply answers).octetsFor (ScriptedServer.understood question) = octets := by
      rw [understood]
      exact congrArg (fun written => written.toOption.getD []) sent
    rw [spelled]
    have asksBack : ∀ got ∈ request.normalized.questions.head?, ∀ asked ∈ request.questions.head?,
        got.type = asked.type ∧
          Name.sameName (Name.text got.labels) (Name.text asked.labels) = true := by
      rintro got found asked first
      cases found
      cases first
      exact ⟨rfl, Name.sameName_iff_toList.mpr rfl⟩
    exact ⟨_, read _ (Octets.holds_whole octets), ⟨rfl, rfl, rfl, asksBack⟩, rfl, plain, some_⟩
  have transferred {parts : List (List ResourceRecord)}
      (writable : ∀ answers ∈ parts, (response answers).Encodable ∧ answers.map
        ResourceRecord.normalized = answers ∧ answers ≠ [] ∧
          ((response answers).write.toOption.getD []).length < 65536)
      (joined : parts.flatten = [authority, address, authority, address]) :
      transfer parts = .ok [authority, address] := by
    have sends : (ScriptedServer.transport server 9 0).Sends server question
        { connections := some [{ sends := (parts.map reply).map (·, none) }] }
        ((parts.map reply).map fun send =>
          (send.octetsFor (ScriptedServer.understood question)).toArray) .ended := by
      refine ScriptedServer.transport_sends false rfl (List.forall_mem_map.mpr ?_)
      intro answers member
      rw [understood]
      exact (writable answers member).2.2.2
    rw [List.map_map] at sends
    have splits : List.Forall₂ (Transfer.Carries request) (parts.map fun answers =>
        ((reply answers).octetsFor (ScriptedServer.understood question)).toArray) parts := by
      refine List.forall₂_map_left_iff.mpr (List.forall₂_same.mpr fun answers member => ?_)
      obtain ⟨encodable, plain, some_, -⟩ := writable answers member
      exact carries answers encodable plain some_
    rw [← kept]
    exact same (prepared _) sends ⟨parts, by rwa [List.map_map], joined⟩
  exact ⟨transferred (by decide +kernel) rfl, transferred (by decide +kernel) rfl⟩

end ZonePropagation
