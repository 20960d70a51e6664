import ZonePropagation.Message.Reader
import ZonePropagation.Message.Writer
import ZonePropagation.Proofs.Octets.Placement
/-!
Headers as octets.  A header whose three narrow fields fit their bits has twelve octets, and twelve
octets are the only spelling of the header that is read from them.
-/

namespace ZonePropagation

open Octets (Holds Recovers forall_octet ofUInt16)

namespace Header

/-- The fields that are narrower in a message than here fit there. -/
structure Narrow (header : Header) : Prop where
  opcode : header.opcode < 16
  z : header.z < 8
  rcode : header.rcode < 16

instance (header : Header) : Decidable header.Narrow :=
  decidable_of_iff (header.opcode < 16 ∧ header.z < 8 ∧ header.rcode < 16)
    ⟨fun fields => ⟨fields.1, fields.2.1, fields.2.2⟩,
      fun narrow => ⟨narrow.opcode, narrow.z, narrow.rcode⟩⟩

/-- The octet that holds the response flag, the operation and three more flags. -/
def upper (header : Header) : UInt8 :=
  flagBit header.qr 128 ||| (header.opcode <<< 3) ||| flagBit header.aa 4 |||
    flagBit header.tc 2 ||| flagBit header.rd 1

/-- The octet that holds a flag, the reserved bits and the response code. -/
def lower (header : Header) : UInt8 :=
  flagBit header.ra 128 ||| (header.z <<< 4) ||| header.rcode

def spelling (header : Header) : List UInt8 :=
  ofUInt16 header.id ++ [header.upper, header.lower] ++ ofUInt16 header.qdcount ++
    ofUInt16 header.ancount ++ ofUInt16 header.nscount ++ ofUInt16 header.arcount

@[simp] theorem length_spelling (header : Header) : header.spelling.length = size := rfl

theorem write_eq_ok_iff {header : Header} {octets : List UInt8} :
    header.write = .ok octets ↔ header.Narrow ∧ octets = header.spelling := by
  unfold write
  split
  · next narrow =>
    rw [Except.ok.injEq, eq_comm]
    exact ⟨fun same => ⟨⟨narrow.1, narrow.2.1, narrow.2.2⟩, same⟩, fun both => both.2⟩
  · next wide =>
    constructor
    · intro impossible
      cases impossible
    · rintro ⟨narrow, -⟩
      exact absurd ⟨narrow.opcode, narrow.z, narrow.rcode⟩ wide

/-! ### The two octets of flags and codes -/

private theorem fields_of_upper : ∀ (qr aa tc rd : Bool) (opcode : Fin 16),
    let octet := flagBit qr 128 ||| (UInt8.ofNat opcode <<< 3) ||| flagBit aa 4 |||
      flagBit tc 2 ||| flagBit rd 1
    (octet &&& 128 != 0) = qr ∧ (octet >>> 3) &&& 15 = UInt8.ofNat opcode ∧
      (octet &&& 4 != 0) = aa ∧ (octet &&& 2 != 0) = tc ∧ (octet &&& 1 != 0) = rd := by
  decide +kernel

private theorem fields_of_lower : ∀ (ra : Bool) (z : Fin 8) (rcode : Fin 16),
    let octet := flagBit ra 128 ||| (UInt8.ofNat z <<< 4) ||| UInt8.ofNat rcode
    (octet &&& 128 != 0) = ra ∧ (octet >>> 4) &&& 7 = UInt8.ofNat z ∧
      octet &&& 15 = UInt8.ofNat rcode := by
  decide +kernel

theorem Narrow.upper_fields {header : Header} (narrow : header.Narrow) :
    (header.upper &&& 128 != 0) = header.qr ∧ (header.upper >>> 3) &&& 15 = header.opcode ∧
      (header.upper &&& 4 != 0) = header.aa ∧ (header.upper &&& 2 != 0) = header.tc ∧
      (header.upper &&& 1 != 0) = header.rd := by
  have fields := fields_of_upper header.qr header.aa header.tc header.rd
    ⟨header.opcode.toNat, UInt8.lt_iff_toNat_lt.mp narrow.opcode⟩
  simpa only [UInt8.ofNat_toNat, upper] using fields

theorem Narrow.lower_fields {header : Header} (narrow : header.Narrow) :
    (header.lower &&& 128 != 0) = header.ra ∧ (header.lower >>> 4) &&& 7 = header.z ∧
      header.lower &&& 15 = header.rcode := by
  have fields := fields_of_lower header.ra
    ⟨header.z.toNat, UInt8.lt_iff_toNat_lt.mp narrow.z⟩
    ⟨header.rcode.toNat, UInt8.lt_iff_toNat_lt.mp narrow.rcode⟩
  simpa only [UInt8.ofNat_toNat, lower] using fields

private theorem upper_of_fields : ∀ octet : UInt8,
    flagBit (octet &&& 128 != 0) 128 ||| (((octet >>> 3) &&& 15) <<< 3) |||
        flagBit (octet &&& 4 != 0) 4 ||| flagBit (octet &&& 2 != 0) 2 |||
        flagBit (octet &&& 1 != 0) 1 = octet ∧
      (octet >>> 3) &&& 15 < 16 :=
  forall_octet (by decide +kernel)

private theorem lower_of_fields : ∀ octet : UInt8,
    flagBit (octet &&& 128 != 0) 128 ||| (((octet >>> 4) &&& 7) <<< 4) ||| (octet &&& 15) = octet ∧
      (octet >>> 4) &&& 7 < 8 ∧ octet &&& 15 < 16 :=
  forall_octet (by decide +kernel)

/-! ### Reading -/

theorem holds_spelling_iff {header : Header} {message : Octets} {offset : Nat} :
    Holds message offset header.spelling ↔
      Holds message offset (ofUInt16 header.id) ∧
        message[offset + 2]? = some header.upper ∧ message[offset + 3]? = some header.lower ∧
        Holds message (offset + 4) (ofUInt16 header.qdcount) ∧
        Holds message (offset + 6) (ofUInt16 header.ancount) ∧
        Holds message (offset + 8) (ofUInt16 header.nscount) ∧
        Holds message (offset + 10) (ofUInt16 header.arcount) := by
  simp only [spelling, Octets.holds_append, Octets.holds_cons, Octets.holds_nil, and_true,
    and_assoc, List.length_append, Octets.length_ofUInt16, List.length_cons, List.length_nil,
    Nat.reduceAdd, Nat.add_assoc]

theorem recovers_spelling {header : Header} (narrow : header.Narrow) :
    Recovers read header.spelling header := by
  intro message offset holds
  obtain ⟨id, upper, lower, qdcount, ancount, nscount, arcount⟩ := holds_spelling_iff.mp holds
  obtain ⟨qr, opcode, aa, tc, rd⟩ := narrow.upper_fields
  obtain ⟨ra, z, rcode⟩ := narrow.lower_fields
  have found : read? message offset = some header := by
    simp only [read?, Octets.uint16At?_of_holds id, upper, lower,
      Octets.uint16At?_of_holds qdcount, Octets.uint16At?_of_holds ancount,
      Octets.uint16At?_of_holds nscount, Octets.uint16At?_of_holds arcount,
      Option.bind_eq_bind, Option.bind_some, Option.pure_def, qr, opcode, aa, tc, rd, ra, z, rcode]
  rw [read, found]
  rfl

theorem holds_of_read {header : Header} {message : Octets} {offset next : Nat}
    (found : read message offset = .ok (header, next)) :
    header.Narrow ∧ Holds message offset header.spelling ∧ next = offset + size := by
  unfold read at found
  split at found
  · next stored fields =>
    cases found
    simp only [read?, Option.bind_eq_bind, Option.bind_eq_some_iff, Option.pure_def,
      Option.some.injEq] at fields
    obtain ⟨id, atId, upper, atUpper, lower, atLower, qdcount, atQdcount, ancount, atAncount,
      nscount, atNscount, arcount, atArcount, rfl⟩ := fields
    obtain ⟨upperSame, opcode⟩ := upper_of_fields upper
    obtain ⟨lowerSame, z, rcode⟩ := lower_of_fields lower
    refine ⟨⟨opcode, z, rcode⟩, holds_spelling_iff.mpr ?_, rfl⟩
    exact ⟨Octets.holds_of_uint16At? atId, atUpper.trans (congrArg some upperSame.symm),
      atLower.trans (congrArg some lowerSame.symm), Octets.holds_of_uint16At? atQdcount,
      Octets.holds_of_uint16At? atAncount, Octets.holds_of_uint16At? atNscount,
      Octets.holds_of_uint16At? atArcount⟩
  · cases found

end Header

end ZonePropagation
