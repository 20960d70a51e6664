import ZonePropagation.Name
import ZonePropagation.Proofs.Name.Spelling
import ZonePropagation.Text.Lowercase
/-!
Canonical octets of names.

A name without capital ASCII letters is written as its canonical octets.  Lowercasing a text leaves
no such letter in it, and the labels of a text have only characters of the text.
-/

namespace ZonePropagation

namespace Text

def IsSmall (character : Char) : Prop :=
  ¬(65 ≤ character.toNat ∧ character.toNat ≤ 90)

theorem IsSmall.toLower_eq {character : Char} (small : IsSmall character) :
    character.toLower = character := by
  unfold Char.toLower
  split
  · next capital => exact absurd capital small
  · rfl

theorem toNat_toLower (character : Char) : character.toLower.toNat =
    if 65 ≤ character.toNat ∧ character.toNat ≤ 90 then character.toNat + 32
    else character.toNat := by
  unfold Char.toLower
  split
  · next capital =>
    have above : 65 ≤ character.toNat := capital.1
    have below : character.toNat ≤ 90 := capital.2
    rw [if_pos ⟨above, below⟩]
    change (character.val + 32).toNat = character.toNat + 32
    rw [UInt32.toNat_add]
    exact Nat.mod_eq_of_lt (by change character.toNat + 32 < 4294967296; omega)
  · next other => exact (if_neg other).symm

theorem isSmall_toLower (character : Char) : IsSmall character.toLower := by
  unfold IsSmall
  rw [toNat_toLower]
  split <;> omega

theorem utf8Size_toLower (character : Char) : character.toLower.utf8Size = character.utf8Size := by
  by_cases capital : 65 ≤ character.toNat ∧ character.toNat ≤ 90
  · have letter := toNat_toLower character
    rw [if_pos capital] at letter
    have one : character.utf8Size = 1 := by
      rw [Char.utf8Size_eq_one_iff, UInt32.le_iff_toNat_le]
      change character.toNat ≤ 127
      omega
    have stillOne : character.toLower.utf8Size = 1 := by
      rw [Char.utf8Size_eq_one_iff, UInt32.le_iff_toNat_le]
      change character.toLower.toNat ≤ 127
      omega
    rw [one, stillOne]
  · rw [IsSmall.toLower_eq capital]

theorem utf8ByteSize_toLower (text : String) : text.toLower.utf8ByteSize = text.utf8ByteSize := by
  have same (characters : List Char) :
      String.utf8Len (characters.map Char.toLower) = String.utf8Len characters := by
    induction characters with
    | nil => rfl
    | cons first rest ih =>
      rw [List.map_cons, String.utf8Len_cons, String.utf8Len_cons, ih, utf8Size_toLower]
  calc text.toLower.utf8ByteSize
      = String.utf8Len (text.toList.map Char.toLower) := by
        rw [← String.toList_map, ← String.utf8ByteSize_ofList, String.ofList_toList, String.toLower]
    _ = text.utf8ByteSize := by
        rw [same, ← String.utf8ByteSize_ofList, String.ofList_toList]

theorem isSmall_ofNat {code : Nat} (other : ¬(65 ≤ code ∧ code ≤ 90)) :
    IsSmall (Char.ofNat code) := by
  unfold Char.ofNat
  split
  · next valid => exact other
  · exact fun capital => absurd capital.1 (by decide)

private theorem capitalRuns_small : ∀ run ∈ capitalRuns,
    (run.2.1 : Int) + run.2.2.2 < 65 ∨ 90 < (run.1 : Int) + run.2.2.2 := by
  decide +kernel

theorem isSmall_smallLetter (character : Char) : IsSmall (smallLetter character) := by
  unfold smallLetter
  dsimp only
  split
  · exact isSmall_toLower character
  · next outside =>
    split
    · next run found =>
      have inside := List.find?_some found
      simp only [Bool.and_eq_true, decide_eq_true_eq] at inside
      have apart := capitalRuns_small run (List.mem_of_find?_eq_some found)
      rw [Int.ofNat_eq_natCast]
      exact isSmall_ofNat (by omega)
    · exact fun capital => outside (by omega)

theorem isSmall_of_mem_lowerAfter {before rest : List Char} {character : Char}
    (member : character ∈ lowerAfter before rest) : IsSmall character := by
  induction rest generalizing before with
  | nil => cases member
  | cons first rest ih =>
    rw [lowerAfter] at member
    rcases List.mem_append.mp member with here | later
    · split at here
      · split at here
        · rw [List.mem_singleton.mp here]
          exact isSmall_ofNat (by decide)
        · rw [List.mem_singleton.mp here]
          exact isSmall_ofNat (by decide)
      · split at here
        · rcases List.mem_cons.mp here with rfl | dot
          · exact fun capital => absurd capital.2 (by decide)
          · rw [List.mem_singleton.mp dot]
            exact isSmall_ofNat (by decide)
        · rw [List.mem_singleton.mp here]
          exact isSmall_smallLetter first
    · exact ih later

theorem isSmall_of_mem_lowercase {text : String} {character : Char}
    (member : character ∈ (lowercase text).toList) : IsSmall character := by
  unfold lowercase at member
  split at member
  · rw [String.toLower, String.toList_map] at member
    obtain ⟨original, -, rfl⟩ := List.mem_map.mp member
    exact isSmall_toLower original
  · rw [String.toList_ofList] at member
    exact isSmall_of_mem_lowerAfter member

theorem toList_lowercase {text : String}
    (ascii : ∀ character ∈ text.toList, character.toNat < 128) :
    (lowercase text).toList = text.toList.map Char.toLower := by
  have all : text.toList.all (fun character => decide (character.toNat < 128)) = true :=
    List.all_eq_true.mpr fun character member => decide_eq_true (ascii character member)
  rw [lowercase, if_pos all, String.toLower, String.toList_map]

end Text

namespace Name

open Octets (ofText)

theorem mem_of_mem_splitDots {text piece : List Char} {character : Char}
    (isPiece : piece ∈ splitDots text) (member : character ∈ piece) : character ∈ text := by
  fun_induction splitDots text generalizing piece with
  | case1 =>
    rw [List.mem_singleton.mp isPiece] at member
    cases member
  | case2 rest ih =>
    rcases List.mem_cons.mp isPiece with rfl | later
    · cases member
    · exact .tail _ (ih later member)
  | case3 first rest notDot head pieces onward ih =>
    rcases List.mem_cons.mp isPiece with rfl | later
    · rcases List.mem_cons.mp member with rfl | inHead
      · exact .head _
      · exact .tail _ (ih (onward ▸ .head _) inHead)
    · exact .tail _ (ih (onward ▸ .tail _ later) member)
  | case4 first rest notDot onward ih =>
    rw [List.mem_singleton.mp isPiece] at member
    rw [List.mem_singleton.mp member]
    exact .head _

/-- A label of a text is not empty, and its characters are those of the text. -/
theorem of_mem_labels {text label : String} (member : label ∈ labels text) :
    label.isEmpty = false ∧ ∀ character ∈ label.toList, character ∈ text.toList := by
  obtain ⟨piece, kept, rfl⟩ := List.mem_map.mp member
  obtain ⟨isPiece, nonempty⟩ := List.mem_filter.mp kept
  constructor
  · cases piece with
    | nil => cases nonempty
    | cons first rest =>
      rw [Bool.eq_false_iff, Ne, String.isEmpty_iff]
      intro empty
      have noCharacters := congrArg String.toList empty
      rw [String.toList_ofList] at noCharacters
      cases noCharacters
  · intro character inLabel
    rw [String.toList_ofList] at inLabel
    exact mem_of_mem_splitDots isPiece inLabel

theorem present_labels (text : String) : present (labels text) = labels text :=
  present_eq_self fun _label member => (of_mem_labels member).1

/-- The canonical form has an octet for each octet of a label, one for its length, and one more. -/
theorem length_canonicalOctets (labels : List String) :
    (canonicalOctets labels).length = octetCount (present labels) + 1 := by
  unfold canonicalOctets present
  rw [List.length_append, List.length_singleton]
  induction labels.filter fun label => !label.isEmpty with
  | nil => rfl
  | cons label labels ih =>
    rw [List.flatMap_cons, List.length_append, octetCount_cons, Nat.add_assoc, ih, canonicalLabel,
      List.length_cons, Octets.length_ofText, Text.utf8ByteSize_toLower]
    omega

/-- A name whose labels have no capital ASCII letter is written as its canonical octets. -/
theorem canonicalOctets_of_write {labels : List String} {octets : List UInt8}
    (small : ∀ label ∈ labels, ∀ character ∈ label.toList, Text.IsSmall character)
    (written : write labels = .ok octets) : canonicalOctets labels = octets := by
  induction labels generalizing octets with
  | nil =>
    cases written
    rfl
  | cons label labels ih =>
    obtain ⟨first, rest, piece, wroteRest, rfl⟩ := write_cons_eq_ok_iff.mp written
    have later := ih (fun other member => small other (.tail _ member)) wroteRest
    have lower : label.toLower = label := by
      apply String.ext
      rw [String.toLower, String.toList_map]
      calc label.toList.map Char.toLower
          = label.toList.map id := List.map_congr_left fun character member =>
            (small label (.head _) character member).toLower_eq
        _ = label.toList := List.map_id _
    unfold canonicalOctets at later ⊢
    rcases writeLabel_eq_ok_iff.mp piece with ⟨empty, rfl⟩ | ⟨nonempty, -, rfl⟩
    · rw [List.filter_cons_of_neg (by simp [empty]), later, List.nil_append]
    · rw [List.filter_cons_of_pos (by simp [nonempty]), List.flatMap_cons, List.append_assoc, later,
        canonicalLabel, lower]

end Name

end ZonePropagation
