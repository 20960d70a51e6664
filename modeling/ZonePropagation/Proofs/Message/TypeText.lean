import ZonePropagation.Message.Codes
import ZonePropagation.Proofs.Name.Labels
import ZonePropagation.Proofs.Nameserver.TextForm
/-!
The text form of record types.

No two types have the same text.  A spelling is read alike in either case; the text of a type, where
it is read at all, is read as that type.  Other spellings of a type, such as its number where it has
a mnemonic, are not its text.
-/

namespace ZonePropagation

/-! ### Capital letters and blanks -/

namespace Text

theorem toNat_toUpper (character : Char) : character.toUpper.toNat =
    if 97 ≤ character.toNat ∧ character.toNat ≤ 122 then character.toNat - 32
    else character.toNat := by
  unfold Char.toUpper
  split
  · next small =>
    have above : 97 ≤ character.toNat := small.1
    have below : character.toNat ≤ 122 := small.2
    rw [if_pos ⟨above, below⟩]
    change (character.val + ('A'.val - 'a'.val)).toNat = character.toNat - 32
    rw [UInt32.toNat_add]
    change (character.toNat + 4294967264) % 4294967296 = _
    omega
  · next other => exact (if_neg other).symm

theorem toUpper_of_lt {character : Char} (early : character.toNat < 97) :
    character.toUpper = character := by
  rw [← Char.toNat_inj, toNat_toUpper, if_neg (by omega)]

theorem isBlank_toUpper (character : Char) : isBlank character.toUpper = isBlank character := by
  have upper := toNat_toUpper character
  by_cases small : 97 ≤ character.toNat ∧ character.toNat ≤ 122
  · rw [if_pos small] at upper
    have blank : isBlank character = false := isBlank_of_ascii (by omega) (by omega)
    rw [blank, isBlank_of_ascii (by omega) (by omega)]
  · rw [if_neg small] at upper
    rw [isBlank, upper, isBlank]

theorem trim_toUpper (text : String) : trim text.toUpper = (trim text).toUpper := by
  have kept : isBlank ∘ Char.toUpper = isBlank := funext isBlank_toUpper
  apply String.toList_inj.mp
  rw [trim, trim, String.toUpper, String.toUpper, String.toList_map, String.toList_map,
    String.toList_ofList, String.toList_ofList, List.dropWhile_map, kept,
    map_dropEndWhile isBlank_toUpper]

theorem toUpper_toUpper (text : String) : text.toUpper.toUpper = text.toUpper := by
  apply String.toList_inj.mp
  simp [String.toUpper]

theorem trim_eq_self {text : String}
    (unblank : ∀ character ∈ text.toList, isBlank character = false) : trim text = text := by
  have kept {characters : List Char} (each : ∀ character ∈ characters, isBlank character = false) :
      characters.dropWhile isBlank = characters := by
    cases characters with
    | nil => rfl
    | cons first rest => exact List.dropWhile_cons_of_neg (by simp [each first (.head _)])
  rw [trim, dropEndWhile, kept unblank, kept, List.reverse_reverse, String.ofList_toList]
  exact fun character member => unblank character (List.mem_reverse.mp member)

end Text

namespace RecordType

def named : List (String × UInt16) := stored ++ requested

theorem ofText?_toUpper (spelling : String) : ofText? spelling.toUpper = ofText? spelling := by
  unfold ofText?
  rw [Text.trim_toUpper, Text.toUpper_toUpper]

/-- The text of a type is its mnemonic, or `TYPE` and the digits of a code without one. -/
theorem text_cases (type : RecordType) :
    (∃ entry ∈ named, entry.1 = type.text ∧ entry.2 = type.code) ∨
      type.text.toList = 'T' :: 'Y' :: 'P' :: 'E' :: Text.portDigits type.code := by
  unfold text
  cases found : type.mnemonic? with
  | some mnemonic =>
    obtain ⟨entry, listed, rfl⟩ := Option.map_eq_some_iff.mp found
    have code := List.find?_some listed
    exact .inl ⟨entry, List.mem_of_find?_eq_some listed, rfl, beq_iff_eq.mp code⟩
  | none =>
    refine .inr ?_
    change ("TYPE" ++ toString type.code).toList = _
    rw [String.toList_append, Text.toList_toString_port]
    rfl

private theorem named_distinct : (named.map fun entry => entry.1.toList).Nodup := by
  decide +kernel

private theorem named_not_numbered :
    ∀ entry ∈ named, entry.1.toList.take 4 ≠ ['T', 'Y', 'P', 'E'] := by
  decide +kernel

theorem text_injective : Function.Injective text := by
  have code_injective {left right : RecordType} (same : left.code = right.code) : left = right :=
    congrArg RecordType.mk same
  intro left right same
  rcases text_cases left with ⟨one, oneNamed, oneText, oneCode⟩ | leftNumbered
  · rcases text_cases right with ⟨other, otherNamed, otherText, otherCode⟩ | rightNumbered
    · have spelled : one.1.toList = other.1.toList := by rw [oneText, same, otherText]
      have entries : one = other :=
        List.inj_on_of_nodup_map named_distinct oneNamed otherNamed spelled
      exact code_injective (by rw [← oneCode, entries, otherCode])
    · refine absurd ?_ (named_not_numbered one oneNamed)
      rw [oneText, same, rightNumbered]
      rfl
  · rcases text_cases right with ⟨other, otherNamed, otherText, otherCode⟩ | rightNumbered
    · refine absurd ?_ (named_not_numbered other otherNamed)
      rw [otherText, ← same, leftNumbered]
      rfl
    · rw [same, rightNumbered] at leftNumbered
      simp only [List.cons.injEq, true_and] at leftNumbered
      exact code_injective (Text.portDigits_injective leftNumbered).symm

private theorem ofText?_named :
    ∀ entry ∈ named, ofText? entry.1 = none ∨ ofText? entry.1 = some ⟨entry.2⟩ := by
  decide +kernel

/-- A number after `TYPE` is read as the code, also where the code has a mnemonic. -/
theorem ofText?_numbered {spelling : String} {code : UInt16}
    (numbered : spelling.toList = 'T' :: 'Y' :: 'P' :: 'E' :: Text.portDigits code) :
    ofText? spelling = some ⟨code⟩ := by
  have ascii : ∀ character ∈ spelling.toList, 33 ≤ character.toNat ∧ character.toNat < 97 := by
    rw [numbered]
    simp only [List.forall_mem_cons]
    refine ⟨by decide, by decide, by decide, by decide, fun character member => ?_⟩
    have digit := Text.toNat_of_isDigit (Text.isDigit_of_mem_portDigits member)
    omega
  have trimmed : Text.trim spelling = spelling := Text.trim_eq_self fun character member =>
    Text.isBlank_of_ascii (ascii character member).1 (by have := ascii character member; omega)
  have large : spelling.toUpper = spelling := by
    rw [String.toUpper, ← String.toList_inj, String.toList_map]
    exact (List.map_congr_left fun character member =>
      Text.toUpper_of_lt (ascii character member).2).trans (List.map_id _)
  have unnamed : (stored.find? fun entry => entry.1 == spelling) = none := by
    rw [List.find?_eq_none]
    intro entry listed
    rw [beq_iff_eq]
    rintro rfl
    refine named_not_numbered entry (List.mem_append_left _ listed) ?_
    rw [numbered]
    rfl
  unfold ofText?
  dsimp only
  rw [trimmed, large, unnamed, numbered]
  change (Text.uint16? (String.ofList (Text.portDigits code))).map mk = some ⟨code⟩
  rw [Text.uint16?_portDigits]
  rfl

theorem eq_of_ofText?_text {type read : RecordType} (found : ofText? type.text = some read) :
    read = type := by
  rcases text_cases type with ⟨entry, isNamed, spelled, code⟩ | numbered
  · rcases ofText?_named entry isNamed with unread | asNamed
    · rw [← spelled, unread] at found
      cases found
    · rw [← spelled, asNamed] at found
      cases found
      exact congrArg RecordType.mk code
  · rw [ofText?_numbered numbered] at found
    cases found
    rfl

end RecordType

end ZonePropagation
