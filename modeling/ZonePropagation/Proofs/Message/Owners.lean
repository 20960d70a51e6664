import ZonePropagation.Message.Dialogue
import ZonePropagation.Proofs.Message.Reencoding
import ZonePropagation.Proofs.Name.Labels
/-!
Whose serial a response gives.

The serial for a zone is that of the first start of authority whose owner, written as a text, names
the zone.  Its labels are those of the zone, and no answer before it has them, just if none of them
has a dot inside; otherwise the serial is another owner's.
-/

namespace ZonePropagation

theorem RecordData.Fits.exists_authority {data : RecordData} (fits : data.Fits .soa) :
    ∃ authority, data = .soa authority := by
  cases data with
  | soa authority => exact ⟨authority, rfl⟩
  | raw octets => exact absurd rfl fits.1

namespace ResourceRecord

def NamesZone (zone : String) (record : ResourceRecord) : Prop :=
  record.type = .soa ∧ Name.sameName record.owner zone = true

instance (zone : String) (record : ResourceRecord) : Decidable (record.NamesZone zone) :=
  inferInstanceAs (Decidable (_ ∧ _))

/-- A start of authority whose owner has as many labels as the zone's name, and the same ones up to
ASCII case. -/
def IsOwnedBy (zone : String) (record : ResourceRecord) : Prop :=
  record.type = .soa ∧ Name.SameLabels record.labels (Name.labels zone)

instance (zone : String) (record : ResourceRecord) : Decidable (record.IsOwnedBy zone) :=
  inferInstanceAs (Decidable (_ ∧ _))

def serial? (record : ResourceRecord) : Option UInt32 :=
  record.authority?.map Authority.serial

variable {zone : String} {record other : ResourceRecord}

theorem IsOwnedBy.namesZone (owned : other.IsOwnedBy zone) (named : record.NamesZone zone)
    (alike : record.IsOwnedBy zone) : other.NamesZone zone := by
  have agree : Name.SameLabels other.labels record.labels := owned.2.trans alike.2.symm
  have sameOwner := Name.sameName_iff.mp (Name.sameName_of_sameLabels agree)
  exact ⟨owned.1, Name.sameName_iff.mpr (sameOwner.trans (Name.sameName_iff.mp named.2))⟩

theorem isOwnedBy_iff_dotless (nonempty : ∀ label ∈ record.labels, label.isEmpty = false)
    (named : record.NamesZone zone) :
    record.IsOwnedBy zone ↔ ∀ label ∈ record.labels, '.' ∉ label.toList := by
  rw [IsOwnedBy, and_iff_right named.1]
  exact Name.sameLabels_iff_dotless nonempty named.2

end ResourceRecord

namespace Message

open ResourceRecord (NamesZone IsOwnedBy)

def IsFirst (message : Message) (chosen : ResourceRecord → Prop) (record : ResourceRecord) : Prop :=
  ∃ before after, message.answers = before ++ record :: after ∧ chosen record ∧
    ∀ earlier ∈ before, ¬chosen earlier

variable {received : Octets} {message : Message} {zone : String} {serial : UInt32}

theorem IsFirst.mem {chosen : ResourceRecord → Prop} {record : ResourceRecord}
    (first : message.IsFirst chosen record) : record ∈ message.answers := by
  obtain ⟨before, after, split, -⟩ := first
  rw [split]
  exact List.mem_append_right before (.head after)

theorem of_mem_answers (found : read received = .ok message) {record : ResourceRecord}
    (member : record ∈ message.answers) :
    (record.type = .soa → record.serial?.isSome = true) ∧
      ∀ label ∈ record.labels, label.isEmpty = false := by
  obtain ⟨encodable, same, -⟩ := encodable_of_read found
  constructor
  · intro isSoa
    have fits := (encodable.records record (by simp [member])).data
    rw [isSoa] at fits
    obtain ⟨authority, data⟩ := fits.exists_authority
    simp [ResourceRecord.serial?, ResourceRecord.authority?, data]
  · have kept : message.answers.map ResourceRecord.normalized = message.answers.map id := by
      rw [List.map_id]
      exact congrArg answers same
    have unchanged := congrArg ResourceRecord.labels (List.map_inj_left.mp kept record member)
    intro label inOwner
    have shown : label ∈ Name.present record.labels := by
      rw [show Name.present record.labels = record.labels from unchanged]
      exact inOwner
    simpa using (List.mem_filter.mp shown).2

theorem soaSerial?_eq (message : Message) (zone : String) :
    message.soaSerial? zone = message.answers.findSome? fun record =>
      if record.NamesZone zone then record.serial? else none := rfl

theorem soaSerial?_eq_some_iff (found : read received = .ok message) :
    message.soaSerial? zone = some serial ↔
      ∃ record, message.IsFirst (NamesZone zone) record ∧ record.serial? = some serial := by
  rw [soaSerial?_eq, List.findSome?_eq_some_iff]
  constructor
  · rintro ⟨before, record, after, split, gives, silent⟩
    have named : record.NamesZone zone := by
      by_contra other
      rw [if_neg other] at gives
      cases gives
    rw [if_pos named] at gives
    refine ⟨record, ⟨before, after, split, named, fun earlier member alsoNamed => ?_⟩, gives⟩
    have silentHere := silent earlier member
    rw [if_pos alsoNamed] at silentHere
    have inAnswers : earlier ∈ message.answers := by
      rw [split]
      exact List.mem_append_left _ member
    have carried := (of_mem_answers found inAnswers).1 alsoNamed.1
    rw [silentHere] at carried
    cases carried
  · rintro ⟨record, ⟨before, after, split, named, unnamed⟩, gives⟩
    exact ⟨before, record, after, split, (if_pos named).trans gives, fun earlier member =>
      if_neg (unnamed earlier member)⟩

/-- A response gives a serial for a zone from the first start of authority whose owner names it.
This is the first one that has the labels of the zone just if its own labels have no dot inside. -/
theorem serial_owned_iff_dotless (found : read received = .ok message)
    (given : message.soaSerial? zone = some serial) :
    ∃ record, message.IsFirst (NamesZone zone) record ∧ record.serial? = some serial ∧
      (message.IsFirst (IsOwnedBy zone) record ↔ ∀ label ∈ record.labels, '.' ∉ label.toList) := by
  obtain ⟨record, first, gives⟩ := (soaSerial?_eq_some_iff found).mp given
  have nonempty := (of_mem_answers found first.mem).2
  obtain ⟨before, after, split, named, unnamed⟩ := first
  refine ⟨record, ⟨before, after, split, named, unnamed⟩, gives, ?_⟩
  rw [← ResourceRecord.isOwnedBy_iff_dotless nonempty named]
  constructor
  · rintro ⟨-, -, -, owned, -⟩
    exact owned
  · intro owned
    exact ⟨before, after, split, owned, fun earlier member alsoOwned =>
      unnamed earlier member (alsoOwned.namesZone named owned)⟩

theorem serial_owned_iff_dotless_second :
    let received : Octets := #[
      0, 9, 132, 0, 0, 0, 0, 2, 0, 0, 0, 0,
      1, 97, 0, 0, 6, 0, 1, 0, 0, 0, 60, 0, 22,
      0, 0, 0, 0, 0, 5, 0, 0, 0, 0, 0, 0, 0, 0, 0, 0, 0, 0, 0, 0, 0, 0,
      1, 98, 192, 12, 0, 6, 0, 1, 0, 0, 0, 60, 0, 22,
      0, 0, 0, 0, 0, 7, 0, 0, 0, 0, 0, 0, 0, 0, 0, 0, 0, 0, 0, 0, 0, 0]
    let answer (labels : List String) (serial : UInt32) : ResourceRecord :=
      { labels, type := .soa, recordClass := .internet, ttl := 60
        data := .soa { serial } }
    let message : Message := {
      header := { id := 9, qr := true, aa := true, ancount := 2 }
      answers := [answer ["a"] 5, answer ["b", "a"] 7] }
    read received = .ok message ∧ message.soaSerial? "B.A" = some 7 ∧
      ∃ record, message.IsFirst (IsOwnedBy "B.A") record ∧ record.serial? = some 7 := by
  intro received answer message
  have found : read received = .ok message := by cbv
  have other : ¬(answer ["a"] 5).NamesZone "B.A" := fun named =>
    absurd (Name.sameName_iff_toList.mp named.2) (by decide +kernel)
  have named : (answer ["b", "a"] 7).NamesZone "B.A" :=
    ⟨rfl, Name.sameName_iff_toList.mpr (by decide +kernel)⟩
  have given : message.soaSerial? "B.A" = some 7 := (soaSerial?_eq_some_iff found).mpr
    ⟨_, ⟨[answer ["a"] 5], [], rfl, named, by simpa using other⟩, rfl⟩
  obtain ⟨record, first, gives, owned⟩ := serial_owned_iff_dotless found given
  refine ⟨found, given, record, owned.mpr ?_, gives⟩
  have dotless : ∀ record ∈ message.answers, ∀ label ∈ record.labels, '.' ∉ label.toList := by
    decide +kernel
  exact dotless record first.mem

/-- An owner with a single label, which has a dot inside, is taken for the zone of two labels. -/
theorem dotted_owner_mistaken :
    let received : Octets := #[
      0, 9, 132, 0, 0, 0, 0, 1, 0, 0, 0, 0,
      3, 97, 46, 98, 0, 0, 6, 0, 1, 0, 0, 0, 60, 0, 22,
      0, 0, 0, 0, 0, 9, 0, 0, 0, 0, 0, 0, 0, 0, 0, 0, 0, 0, 0, 0, 0, 0]
    let message : Message := {
      header := { id := 9, qr := true, aa := true, ancount := 1 }
      answers := [{
        labels := ["a.b"], type := .soa, recordClass := .internet, ttl := 60
        data := .soa { serial := 9 } }] }
    read received = .ok message ∧ Name.labels "a.b" = ["a", "b"] ∧
      message.soaSerial? "a.b" = some 9 ∧ ∀ record ∈ message.answers, ¬record.IsOwnedBy "a.b" := by
  intro received message
  have found : read received = .ok message := by cbv
  have asked : Name.labels "a.b" = ["a", "b"] := by decide +kernel
  have named : Name.sameName (Name.text ["a.b"]) "a.b" = true :=
    Name.sameName_iff_toList.mpr (by decide +kernel)
  have given : message.soaSerial? "a.b" = some 9 := (soaSerial?_eq_some_iff found).mpr
    ⟨_, ⟨[], [], rfl, ⟨rfl, named⟩, by simp⟩, rfl⟩
  refine ⟨found, asked, given, fun record member owned => ?_⟩
  rw [List.mem_singleton.mp member, ResourceRecord.IsOwnedBy, asked] at owned
  have lengths := congrArg List.length owned.2
  cases lengths

end Message

end ZonePropagation
