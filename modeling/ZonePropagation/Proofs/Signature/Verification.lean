import ZonePropagation.Message.Dialogue
import ZonePropagation.Proofs.Message.RoundTrip
import ZonePropagation.Proofs.Name.Canonical
import ZonePropagation.Signature
/-!
Signed messages verify.

A signed message is the written message, which now announces one more additional record, and then
that record.  A verifier reads the record, takes it away, restores the header, and authenticates
what is left together with the variables that it has read.  It arrives at the authentication code
in the record, whatever function authenticates.
-/

namespace ZonePropagation

open Octets (Holds Recovers ofUInt16 ofUInt32 ofUInt48)

namespace Octets

def uint48At? (octets : Octets) (offset : Nat) : Option UInt64 := do
  let high ← uint16At? octets offset
  let low ← uint32At? octets (offset + 2)
  return (high.toNat * 4294967296 + low.toNat).toUInt64

def replaced (octets : List UInt8) (offset : Nat) (part : List UInt8) : List UInt8 :=
  octets.take offset ++ part ++ octets.drop (offset + part.length)

@[simp] theorem length_ofUInt48 (value : UInt64) : (ofUInt48 value).length = 6 := rfl

theorem ofUInt48_eq (value : UInt64) :
    ofUInt48 value = ofUInt16 (value >>> 32).toUInt16 ++ ofUInt32 value.toUInt32 := by
  have bound := value.toNat_lt
  simp only [ofUInt48, ofUInt16, ofUInt32, List.cons_append, List.nil_append, List.cons.injEq,
    and_true, ← UInt8.toNat_inj]
  simp [Nat.shiftRight_eq_div_pow]
  omega

theorem ofUInt48_mod (value : UInt64) :
    ofUInt48 (value % 0x1000000000000) = ofUInt48 value := by
  simp only [ofUInt48, List.cons.injEq, and_true, ← UInt8.toNat_inj]
  simp [Nat.shiftRight_eq_div_pow]
  omega

theorem uint48At?_of_holds {message : Octets} {offset : Nat} {value : UInt64}
    (holds : Holds message offset (ofUInt48 value)) :
    uint48At? message offset = some (value % 0x1000000000000) := by
  rw [ofUInt48_eq, holds_append, length_ofUInt16] at holds
  have bound := value.toNat_lt
  have joined : ((value >>> 32).toUInt16.toNat * 4294967296 + value.toUInt32.toNat).toUInt64 =
      value % 0x1000000000000 := by
    apply UInt64.toNat_inj.mp
    simp [Nat.shiftRight_eq_div_pow]
    omega
  simp only [uint48At?, uint16At?_of_holds holds.1, uint32At?_of_holds holds.2,
    Option.bind_eq_bind, Option.bind_some, joined]
  rfl

theorem replaced_between {part : List UInt8} (before old after : List UInt8)
    (same : old.length = part.length) :
    replaced (before ++ old ++ after) before.length part = before ++ part ++ after := by
  have kept : (before ++ old ++ after).drop (before.length + part.length) = after := by
    rw [← same, ← List.length_append, List.drop_left]
  rw [replaced, kept, List.append_assoc before old, List.take_left]

end Octets

namespace Signature

open Octets (replaced)

/-! ### Verifiers -/

structure Carried where
  keyName : List String
  recordClass : RecordClass
  ttl : UInt32
  algorithm : List String
  time : UInt64
  fudge : UInt16
  code : List UInt8
  originalId : UInt16
  error : UInt16
  other : List UInt8
deriving DecidableEq, Repr

namespace Carried

def ofData? (keyName : List String) (recordClass : RecordClass) (ttl : UInt32) (data : Octets) :
    Option Carried := do
  let (algorithm, after) ← (Name.read data 0).toOption
  let time ← Octets.uint48At? data after
  let fudge ← Octets.uint16At? data (after + 6)
  let size ← Octets.uint16At? data (after + 8)
  let code ← Octets.slice? data (after + 10) size.toNat
  let rest := after + 10 + size.toNat
  let originalId ← Octets.uint16At? data rest
  let error ← Octets.uint16At? data (rest + 2)
  let otherSize ← Octets.uint16At? data (rest + 4)
  let other ← Octets.slice? data (rest + 6) otherSize.toNat
  guard (rest + 6 + otherSize.toNat = data.size)
  return { keyName, recordClass, ttl, algorithm, time, fudge, code := code.toList, originalId, error
           other := other.toList }

/-- Reads the signature record that starts at an offset, and after which nothing stands. -/
def read? (signed : Octets) (start : Nat) : Option Carried := do
  let (record, stop) ← (ResourceRecord.read signed start).toOption
  guard (record.type = .tsig ∧ stop = signed.size)
  match record.data with
  | .raw data => ofData? record.labels record.recordClass record.ttl data.toArray
  | .soa _ => none

def covered (carried : Carried) : List UInt8 :=
  Name.canonicalOctets carried.keyName ++ ofUInt16 carried.recordClass.code ++
    ofUInt32 carried.ttl ++ Name.canonicalOctets carried.algorithm ++ ofUInt48 carried.time ++
    ofUInt16 carried.fudge ++ ofUInt16 carried.error ++
    ofUInt16 carried.other.length.toUInt16 ++ carried.other

end Carried

/-- The message before it was signed: without the record that starts at an offset, with the
original id, and with `count` additional records less one. -/
def unsigned (signed : Octets) (start : Nat) (originalId count : UInt16) : List UInt8 :=
  replaced (replaced (signed.toList.take start) 0 (ofUInt16 originalId)) 10 (ofUInt16 (count - 1))

/-- What a verifier reads from the record that starts at an offset, and the authentication code at
which it arrives. -/
def verification? (authenticate : SignatureAlgorithm → List UInt8 → List UInt8 → List UInt8)
    (secret : List UInt8) (signed : Octets) (start : Nat) : Option (Carried × List UInt8) := do
  let carried ← Carried.read? signed start
  let algorithm ← SignatureAlgorithm.ofName? (Name.text carried.algorithm)
  let count ← Octets.uint16At? signed 10
  let octets := unsigned signed start carried.originalId count ++ carried.covered
  return (carried, authenticate algorithm secret octets)

/-! ### The octets of a signed message -/

/-- One more additional record stands after the message, and changes only the number of additional
records in it. -/
theorem write_appended {message : Message} {extra : ResourceRecord} {written signed : List UInt8}
    (wrote : message.write = .ok written) (wroteAll : (appended message extra).write = .ok signed) :
    ∃ between body octets, extra.write = .ok octets ∧ between.length = 8 ∧
      written = ofUInt16 message.header.id ++ between ++
        ofUInt16 message.additionals.length.toUInt16 ++ body ∧
      signed = ofUInt16 message.header.id ++ between ++
        ofUInt16 (message.additionals.length + 1).toUInt16 ++ body ++ octets := by
  obtain ⟨-, questions, answers, authorities, additionals, wroteQuestions, wroteAnswers,
    wroteAuthorities, wroteAdditionals, rfl⟩ := Message.write_eq_ok_iff.mp wrote
  obtain ⟨-, asked, answered, delegated, more, sameQuestions, sameAnswers, sameAuthorities,
    wroteMore, rfl⟩ := Message.write_eq_ok_iff.mp wroteAll
  obtain rfl := Except.ok.inj (wroteQuestions.symm.trans sameQuestions)
  obtain rfl := Except.ok.inj (wroteAnswers.symm.trans sameAnswers)
  obtain rfl := Except.ok.inj (wroteAuthorities.symm.trans sameAuthorities)
  have split : (message.additionals ++ [extra]).mapM ResourceRecord.write = .ok more := wroteMore
  rw [List.mapM_append, wroteAdditionals, ok_bind] at split
  obtain ⟨last, wroteLast, joined⟩ := bind_eq_ok_iff.mp split
  cases joined
  rw [List.mapM_cons, List.mapM_nil] at wroteLast
  obtain ⟨octets, wroteExtra, rest⟩ := bind_eq_ok_iff.mp wroteLast
  cases rest
  refine ⟨[message.countedHeader.upper, message.countedHeader.lower] ++
    ofUInt16 message.countedHeader.qdcount ++ ofUInt16 message.countedHeader.ancount ++
    ofUInt16 message.countedHeader.nscount,
    questions.flatten ++ answers.flatten ++ authorities.flatten ++ additionals.flatten, octets,
    wroteExtra, rfl, ?_, ?_⟩
  · simp only [Header.spelling, List.append_assoc]
    rfl
  · have counted : (appended message extra).countedHeader =
        { message.countedHeader with arcount := (message.additionals.length + 1).toUInt16 } := by
      simp [Message.countedHeader, appended]
    rw [counted]
    simp only [Header.spelling, List.append_assoc, List.flatten_append, List.flatten_cons,
      List.flatten_nil, List.append_nil]
    rfl

theorem unsigned_eq {id count more : UInt16} {between body octets : List UInt8}
    (length : between.length = 8) (next : more - 1 = count) :
    unsigned (ofUInt16 id ++ between ++ ofUInt16 more ++ body ++ octets).toArray
        (ofUInt16 id ++ between ++ ofUInt16 count ++ body).length id more =
      ofUInt16 id ++ between ++ ofUInt16 count ++ body := by
  have sameLength : (ofUInt16 id ++ between ++ ofUInt16 count ++ body).length =
      (ofUInt16 id ++ between ++ ofUInt16 more ++ body).length := by simp
  have identified : replaced (ofUInt16 id ++ between ++ ofUInt16 more ++ body) 0 (ofUInt16 id) =
      ofUInt16 id ++ between ++ ofUInt16 more ++ body := by
    have same : (ofUInt16 id).length = (ofUInt16 id).length := rfl
    simpa using Octets.replaced_between [] (ofUInt16 id) (between ++ ofUInt16 more ++ body) same
  have beforeCount : (ofUInt16 id ++ between).length = 10 := by simp [length]
  rw [unsigned, sameLength, List.toList_toArray, List.take_left, identified, next, ← beforeCount]
  exact Octets.replaced_between _ _ body rfl

/-! ### The signature record -/

theorem write_algorithm (algorithm : SignatureAlgorithm) :
    Name.write (Name.labels algorithm.name) = .ok (algorithmOctets algorithm) := by
  cases algorithm <;> cbv

theorem ofName?_text (algorithm : SignatureAlgorithm) :
    SignatureAlgorithm.ofName? (Name.text (Name.labels algorithm.name)) = some algorithm := by
  cases algorithm <;> cbv

theorem recovers_algorithm (algorithm : SignatureAlgorithm) :
    Octets.Recovers Name.read (algorithmOctets algorithm) (Name.labels algorithm.name) := by
  have fits : Name.octetCount (Name.present (Name.labels algorithm.name)) ≤ 255 := by
    cases algorithm <;> cbv
  have recovers := Name.recovers_of_write (write_algorithm algorithm) fits
  rwa [Name.present_labels] at recovers

theorem length_recordData (key : SignatureKey) (time : UInt64) (id : UInt16) (code : List UInt8) :
    (recordData key time id code).length = 29 + code.length := by
  have algorithmSize : (algorithmOctets key.algorithm).length = 13 := by
    cases key.algorithm <;> cbv
  simp [recordData, algorithmSize]
  omega

def carriedBy (key : SignatureKey) (time : UInt64) (id : UInt16) (code : List UInt8) : Carried where
  keyName := Name.labels key.name
  recordClass := .any
  ttl := 0
  algorithm := Name.labels key.algorithm.name
  time := time % 0x1000000000000
  fudge := 300
  code
  originalId := id
  error := 0
  other := []

theorem ofData?_of_holds {keyName : List String} {recordClass : RecordClass} {ttl : UInt32}
    {key : SignatureKey} {time : UInt64} {id : UInt16} {code : List UInt8} {data : Octets}
    (holds : Holds data 0 (recordData key time id code))
    (size : data.size = (recordData key time id code).length) (short : code.length ≤ 65535) :
    Carried.ofData? keyName recordClass ttl data =
      some { carriedBy key time id code with keyName, recordClass, ttl } := by
  have codeSize : code.length.toUInt16.toNat = code.length := Message.toNat_count short
  have recovers := recovers_algorithm key.algorithm
  unfold recordData at holds size
  generalize algorithmOctets key.algorithm = algorithm at recovers holds size
  simp only [List.append_assoc] at holds
  obtain ⟨algorithmHeld, rest⟩ := Octets.holds_append.mp holds
  have algorithmRead := recovers data 0 algorithmHeld
  simp only [List.length_append, Octets.length_ofUInt16, Octets.length_ofUInt48] at size
  rw [Nat.zero_add] at rest algorithmRead
  generalize algorithm.length = after at *
  simp only [Octets.holds_append, Octets.length_ofUInt16, Octets.length_ofUInt48, Nat.add_assoc,
    Nat.reduceAdd] at rest
  obtain ⟨timeHeld, fudgeHeld, sizeHeld, codeHeld, idHeld, errorHeld, otherHeld⟩ := rest
  simp only [← Nat.add_assoc] at idHeld errorHeld otherHeld
  have codeRead := Octets.slice?_of_holds codeHeld (by omega)
  have nothingLeft : after + 10 + code.length + 6 + (0 : UInt16).toNat = data.size := by
    rw [size, UInt16.toNat_zero]
  have otherRead : Octets.slice? data (after + 10 + code.length + 6) (0 : UInt16).toNat =
      some #[] :=
    Octets.slice?_of_holds (Octets.holds_nil _ _) (Nat.le_of_eq nothingLeft)
  simp only [Carried.ofData?, algorithmRead, Except.toOption, Option.bind_eq_bind, Option.bind_some,
    Octets.uint48At?_of_holds timeHeld, Octets.uint16At?_of_holds fudgeHeld,
    Octets.uint16At?_of_holds sizeHeld, codeSize, codeRead, Octets.uint16At?_of_holds idHeld,
    Octets.uint16At?_of_holds errorHeld, Octets.uint16At?_of_holds otherHeld, otherRead,
    nothingLeft, guard, if_true]
  rfl

theorem covered_carriedBy (key : SignatureKey) (time : UInt64) (id : UInt16) (code : List UInt8) :
    (carriedBy key time id code).covered = signedFields key time := by
  simp only [Carried.covered, carriedBy, Octets.ofUInt48_mod, signedFields, algorithmOctets,
    List.append_nil]
  rfl

variable {key : SignatureKey} {time : UInt64} {id : UInt16} {code signature : List UInt8}

theorem recovers_record (fits : Name.octetCount (Name.labels key.name) ≤ 255)
    (wrote : (record key time id code).write = .ok signature) :
    Recovers ResourceRecord.read signature (record key time id code) := by
  obtain ⟨name, data, wroteData, short, wroteName, -⟩ := ResourceRecord.write_eq_ok_iff.mp wrote
  obtain rfl := Except.ok.inj wroteData
  have present := Name.present_labels key.name
  have writable : Name.Writable (record key time id code).labels :=
    ⟨Name.short_of_write wroteName, by rw [record, present]; exact fits⟩
  have dataFits : (record key time id code).data.Fits .tsig := ⟨by decide, short⟩
  obtain ⟨octets, wroteAgain, recovers⟩ := ResourceRecord.recovers_write ⟨writable, dataFits⟩
  obtain rfl := Except.ok.inj (wrote.symm.trans wroteAgain)
  have same : (record key time id code).normalized = record key time id code := by
    simp only [ResourceRecord.normalized, record, present, RecordData.normalized]
  rwa [same] at recovers

theorem read?_record (fits : Name.octetCount (Name.labels key.name) ≤ 255)
    (wrote : (record key time id code).write = .ok signature) (before : List UInt8) :
    Carried.read? (before ++ signature).toArray before.length =
      some (carriedBy key time id code) := by
  obtain ⟨name, data, wroteData, short, -, -⟩ := ResourceRecord.write_eq_ok_iff.mp wrote
  obtain rfl := Except.ok.inj wroteData
  have holds : Holds (before ++ signature).toArray before.length signature := by
    simpa using Octets.holds_between before signature []
  have found := recovers_record fits wrote _ _ holds
  have codeShort : code.length ≤ 65535 := by
    rw [length_recordData] at short
    omega
  have atEnd : (record key time id code).type = .tsig ∧
      before.length + signature.length = (before ++ signature).toArray.size := ⟨rfl, by simp⟩
  simp only [Carried.read?, found, Except.toOption, Option.bind_eq_bind, Option.bind_some]
  rw [guard, if_pos atEnd]
  exact ofData?_of_holds (Octets.holds_whole _) List.size_toArray codeShort

/-! ### Messages that can be signed -/

theorem encodable_appended {message : Message} (encodable : message.Encodable)
    (room : message.additionals.length < 65535) (writable : Name.Writable (Name.labels key.name))
    (short : code.length ≤ 65506) : (appended message (record key time id code)).Encodable := by
  have dataFits : (record key time id code).data.Fits .tsig :=
    ⟨by decide, by rw [length_recordData]; omega⟩
  refine { encodable with records := fun other member => ?_, additionalCount := ?_ }
  · simp only [appended, ← List.append_assoc] at member
    rcases List.mem_append.mp member with before | last
    · exact encodable.records other before
    · rw [List.mem_singleton.mp last]
      exact ⟨writable, dataFits⟩
  · rw [appended, List.length_append]
    exact room

theorem exists_signWith (authenticate : SignatureAlgorithm → List UInt8 → List UInt8 → List UInt8)
    {message : Message} (encodable : message.Encodable)
    (room : message.additionals.length < 65535) (writable : Name.Writable (Name.labels key.name))
    (short : ∀ octets, (authenticate key.algorithm key.secret octets).length ≤ 65506) :
    ∃ signed, signWith authenticate key message time = .ok signed := by
  obtain ⟨octets, wrote, -⟩ := encodable.exists_write
  have appendedEncodable : (appended message (record key time message.header.id
      (authenticate key.algorithm key.secret (octets ++ signedFields key time)))).Encodable :=
    encodable_appended encodable room writable (short _)
  obtain ⟨signed, wroteAll, -⟩ := appendedEncodable.exists_write
  refine ⟨signed, ?_⟩
  simp only [signWith, written, wrote, Except.mapError, ok_bind]
  rw [wroteAll]

theorem length_code_le (algorithm : SignatureAlgorithm) (secret octets : List UInt8) :
    (algorithm.code secret octets).length ≤ 64 := by
  cases algorithm <;>
    simp [SignatureAlgorithm.code, SignatureAlgorithm.hash, Digest.hmac, Digest.sha256,
      Digest.sha384, Digest.sha512, Digest.digest, Digest.State.words, Digest.words32,
      Digest.words64, Octets.ofUInt64]

/-! ### Verified messages -/

theorem isSmall_of_ofBase64 {name algorithm secret : String} {key : SignatureKey}
    (built : SignatureKey.ofBase64 name algorithm secret = .ok key) :
    ∀ label ∈ Name.labels key.name, ∀ character ∈ label.toList, Text.IsSmall character := by
  unfold SignatureKey.ofBase64 at built
  split at built
  · cases built
  · split at built
    · cases built
    · have named := congrArg SignatureKey.name (Except.ok.inj built)
      dsimp only at named
      intro label member character inLabel
      have inName := (Name.of_mem_labels member).2 character inLabel
      rw [← named] at inName
      exact Text.isSmall_of_mem_lowercase inName

theorem verification?_eq (authenticate : SignatureAlgorithm → List UInt8 → List UInt8 → List UInt8)
    (fits : Name.octetCount (Name.labels key.name) ≤ 255)
    (wrote : (record key time id code).write = .ok signature) (count : UInt16)
    {between body : List UInt8} (length : between.length = 8)
    (authentic : code = authenticate key.algorithm key.secret
      (ofUInt16 id ++ between ++ ofUInt16 count ++ body ++ signedFields key time)) :
    verification? authenticate key.secret
        (ofUInt16 id ++ between ++ ofUInt16 (count + 1) ++ body ++ signature).toArray
        (ofUInt16 id ++ between ++ ofUInt16 count ++ body).length =
      some (carriedBy key time id code, code) := by
  have sameLength : (ofUInt16 id ++ between ++ ofUInt16 count ++ body).length =
      (ofUInt16 id ++ between ++ ofUInt16 (count + 1) ++ body).length := by simp
  have carried := read?_record fits wrote (ofUInt16 id ++ between ++ ofUInt16 (count + 1) ++ body)
  rw [← sameLength] at carried
  have counted := Octets.uint16At?_of_holds
    (Octets.holds_between (ofUInt16 id ++ between) (ofUInt16 (count + 1)) (body ++ signature))
  rw [List.length_append, Octets.length_ofUInt16, length, ← List.append_assoc] at counted
  have next : count + 1 - 1 = count := by simp
  have restored : unsigned
      (ofUInt16 id ++ between ++ ofUInt16 (count + 1) ++ body ++ signature).toArray
      (ofUInt16 id ++ between ++ ofUInt16 count ++ body).length id (count + 1) =
        ofUInt16 id ++ between ++ ofUInt16 count ++ body := unsigned_eq length next
  have named : SignatureAlgorithm.ofName? (Name.text (carriedBy key time id code).algorithm) =
      some key.algorithm := ofName?_text key.algorithm
  have identified : (carriedBy key time id code).originalId = id := rfl
  simp only [verification?, carried, named, counted, Option.bind_eq_bind, Option.bind_some,
    covered_carriedBy, identified, restored, ← authentic]
  rfl

/-- Every message that is signed verifies.  The signed octets are those of the message, announcing
one more additional record, and then the signature record, which begins with the canonical octets of
the key's name.  A verifier reads from it all that the signer put into it, and arrives at the same
authentication code. -/
theorem sign_verifies (authenticate : SignatureAlgorithm → List UInt8 → List UInt8 → List UInt8)
    {name algorithm secret : String} {key : SignatureKey}
    (built : SignatureKey.ofBase64 name algorithm secret = .ok key)
    (fits : Name.octetCount (Name.labels key.name) ≤ 255) {message : Message}
    (room : message.additionals.length < 65535) {time : UInt64} {signed : List UInt8}
    (success : signWith authenticate key message time = .ok signed) :
    ∃ written signature code, ∃ count : UInt16,
      message.write = .ok written ∧
      Octets.uint16At? written.toArray 10 = some count ∧
      count.toNat = message.additionals.length ∧
      (record key time message.header.id code).write = .ok signature ∧
      Name.canonicalOctets (Name.labels key.name) <+: signature ∧
      signed = replaced written 10 (ofUInt16 (count + 1)) ++ signature ∧
      verification? authenticate key.secret signed.toArray written.length =
        some (carriedBy key time message.header.id code, code) := by
  obtain ⟨written, wrote, rest⟩ := bind_eq_ok_iff.mp success
  have wroteMessage := mapError_eq_ok_iff.mp wrote
  have wroteAll := mapError_eq_ok_iff.mp rest
  obtain ⟨between, body, signature, wroteRecord, length, rfl, rfl⟩ :=
    write_appended wroteMessage wroteAll
  obtain ⟨octets, data, -, -, wroteName, begins⟩ := ResourceRecord.write_eq_ok_iff.mp wroteRecord
  have canonical := Name.canonicalOctets_of_write (isSmall_of_ofBase64 built) wroteName
  have beforeCount : (ofUInt16 message.header.id ++ between).length = 10 := by simp [length]
  have next : (message.additionals.length + 1).toUInt16 =
      message.additionals.length.toUInt16 + 1 := by simp
  have sameLength : (ofUInt16 message.additionals.length.toUInt16).length =
      (ofUInt16 (message.additionals.length.toUInt16 + 1)).length := rfl
  rw [next]
  refine ⟨_, signature, _, message.additionals.length.toUInt16, wroteMessage, ?_,
    Message.toNat_count (Nat.le_of_lt room), wroteRecord, ?_, ?_,
    verification?_eq authenticate fits wroteRecord _ length rfl⟩
  · have holds := Octets.holds_between (ofUInt16 message.header.id ++ between)
      (ofUInt16 message.additionals.length.toUInt16) body
    rw [beforeCount] at holds
    exact Octets.uint16At?_of_holds holds
  · rw [canonical, begins]
    simp only [List.append_assoc]
    exact List.prefix_append _ _
  · have replacedCount := Octets.replaced_between (ofUInt16 message.header.id ++ between)
      (ofUInt16 message.additionals.length.toUInt16) body sameLength
    rw [beforeCount] at replacedCount
    rw [replacedCount]

theorem sign_verifies_notify :
    ∃ key signed start code,
      SignatureKey.ofBase64 "Transfer.Key." "HMAC-SHA256" "c2VjcmV0" = .ok key ∧
      sign key (Message.notify 7 "example.com.") 1700000000 = .ok signed ∧
      verification? SignatureAlgorithm.code key.secret signed.toArray start =
        some (carriedBy key 1700000000 7 code, code) := by
  let key : SignatureKey := ⟨"transfer.key", .sha256, [115, 101, 99, 114, 101, 116]⟩
  have built : SignatureKey.ofBase64 "Transfer.Key." "HMAC-SHA256" "c2VjcmV0" = .ok key := by cbv
  have encodable : (Message.notify 7 "example.com.").Encodable := by decide
  have writable : Name.Writable (Name.labels key.name) := by decide
  have short (octets : List UInt8) :
      (SignatureAlgorithm.code key.algorithm key.secret octets).length ≤ 65506 :=
    Nat.le_trans (length_code_le _ _ octets) (by decide)
  obtain ⟨signed, success⟩ :=
    exists_signWith SignatureAlgorithm.code encodable (by decide) writable short
  obtain ⟨octets, -, code, -, -, -, -, -, -, -, verified⟩ :=
    sign_verifies SignatureAlgorithm.code built (by decide) (by decide) success
  exact ⟨key, signed, octets.length, code, built, success, verified⟩

end Signature

end ZonePropagation
