import ZonePropagation.Proofs.Name.Labels
/-!
One equality of names in three forms.

Names are compared as texts, by their canonical octets, or label by label up to ASCII case.  The
three agree for labels that are not empty, have no dot inside and are no longer than a length octet
can say, the name of the root included.
-/

namespace ZonePropagation

theorem Octets.ofText_injective : Function.Injective ofText := by
  intro left right same
  have readLeft : text? (ofText left).toArray = some left := text?_eq_some_iff.mpr rfl
  have readRight : text? (ofText right).toArray = some right := text?_eq_some_iff.mpr rfl
  rw [same, readRight] at readLeft
  exact (Option.some.inj readLeft).symm

namespace Name

/-- A text that is one label: it is not empty, no dot divides it, and its length fits an octet. -/
structure IsLabel (label : String) : Prop where
  nonempty : label.isEmpty = false
  dotless : '.' ∉ label.toList
  short : label.utf8ByteSize ≤ 255

theorem isLabel_iff (label : String) : IsLabel label ↔
    label.isEmpty = false ∧ '.' ∉ label.toList ∧ label.utf8ByteSize ≤ 255 :=
  ⟨fun ⟨nonempty, dotless, short⟩ => ⟨nonempty, dotless, short⟩,
    fun ⟨nonempty, dotless, short⟩ => ⟨nonempty, dotless, short⟩⟩

instance (label : String) : Decidable (IsLabel label) :=
  decidable_of_iff' _ (isLabel_iff label)

theorem sameLabels_iff_toList (left right : List String) : SameLabels left right ↔
    left.map (fun label => label.toList.map Char.toLower) =
      right.map fun label => label.toList.map Char.toLower := by
  have folded (labels : List String) : (labels.map fun label => label.toList.map Char.toLower) =
      (labels.map String.toLower).map String.toList := by
    rw [List.map_map]
    exact List.map_congr_left fun label _ => String.toList_map.symm
  have injective : Function.Injective String.toList := fun _ _ => String.toList_inj.mp
  rw [folded, folded, (List.map_injective_iff.mpr injective).eq_iff, SameLabels]

/-! ### Canonical octets -/

theorem canonicalLabel_toLower (label : String) :
    canonicalLabel label.toLower = canonicalLabel label := by
  have twice : label.toLower.toLower = label.toLower := by
    simp [String.toLower, Function.comp_def]
  rw [canonicalLabel, twice, Text.utf8ByteSize_toLower, canonicalLabel]

theorem canonicalOctets_toLower (labels : List String) :
    canonicalOctets (labels.map String.toLower) = canonicalOctets labels := by
  have kept : (fun label => !label.isEmpty) ∘ String.toLower = fun label => !label.isEmpty := by
    funext label
    rw [Function.comp_apply, String.isEmpty, Text.utf8ByteSize_toLower, String.isEmpty]
  rw [canonicalOctets, List.filter_map, kept, List.flatMap_map]
  simp only [canonicalLabel_toLower, canonicalOctets]

theorem canonicalOctets_cons {label : String} (nonempty : label.isEmpty = false)
    (labels : List String) :
    canonicalOctets (label :: labels) = canonicalLabel label ++ canonicalOctets labels := by
  rw [canonicalOctets, List.filter_cons_of_pos (by simp [nonempty]), List.flatMap_cons,
    List.append_assoc, canonicalOctets]

theorem canonicalLabel_append_inj {left right : String} {leftRest rightRest : List UInt8}
    (leftShort : left.utf8ByteSize ≤ 255) (rightShort : right.utf8ByteSize ≤ 255)
    (same : canonicalLabel left ++ leftRest = canonicalLabel right ++ rightRest) :
    left.toLower = right.toLower ∧ leftRest = rightRest := by
  obtain ⟨lengths, spelled⟩ := List.cons.inj same
  have sizes : left.utf8ByteSize = right.utf8ByteSize := by
    have values := congrArg UInt8.toNat lengths
    simp only [Nat.toUInt8_eq, UInt8.toNat_ofNat'] at values
    omega
  obtain ⟨labels, rests⟩ := List.append_inj spelled (by
    rw [Octets.length_ofText, Octets.length_ofText, Text.utf8ByteSize_toLower,
      Text.utf8ByteSize_toLower, sizes])
  exact ⟨Octets.ofText_injective labels, rests⟩

theorem canonicalOctets_cons_ne_nil {label : String} (isLabel : IsLabel label)
    (labels : List String) : canonicalOctets (label :: labels) ≠ canonicalOctets [] := by
  rw [canonicalOctets_cons isLabel.nonempty]
  intro same
  have closed : label.utf8ByteSize.toUInt8 = 0 := (List.cons.inj same).1
  have values := congrArg UInt8.toNat closed
  have some : label.utf8ByteSize ≠ 0 := by simpa [String.isEmpty] using isLabel.nonempty
  have short := isLabel.short
  simp only [Nat.toUInt8_eq, UInt8.toNat_ofNat', UInt8.toNat_zero] at values
  omega

theorem canonicalOctets_eq_iff {left right : List String}
    (leftLabels : ∀ label ∈ left, IsLabel label) (rightLabels : ∀ label ∈ right, IsLabel label) :
    canonicalOctets left = canonicalOctets right ↔ SameLabels left right := by
  constructor
  · intro same
    induction left generalizing right with
    | nil =>
      cases right with
      | nil => rfl
      | cons other others =>
        exact absurd same.symm (canonicalOctets_cons_ne_nil (rightLabels other (.head _)) others)
    | cons label labels ih =>
      have isLabel := leftLabels label (.head _)
      cases right with
      | nil => exact absurd same (canonicalOctets_cons_ne_nil isLabel labels)
      | cons other others =>
        have isOther := rightLabels other (.head _)
        rw [canonicalOctets_cons isLabel.nonempty, canonicalOctets_cons isOther.nonempty] at same
        obtain ⟨alike, rest⟩ := canonicalLabel_append_inj isLabel.short isOther.short same
        have later := ih (fun later member => leftLabels later (.tail _ member))
          (fun later member => rightLabels later (.tail _ member)) rest
        rw [SameLabels, List.map_cons, List.map_cons, alike, later]
  · intro same
    rw [← canonicalOctets_toLower left, ← canonicalOctets_toLower right, same]

/-! ### Texts -/

theorem labels_text_of_isLabel {names : List String} (each : ∀ label ∈ names, IsLabel label) :
    labels (text names) = names :=
  labels_text fun label member => ⟨(each label member).nonempty, (each label member).dotless⟩

theorem sameName_text_iff {left right : List String} (leftLabels : ∀ label ∈ left, IsLabel label)
    (rightLabels : ∀ label ∈ right, IsLabel label) :
    sameName (text left) (text right) = true ↔ SameLabels left right := by
  constructor
  · intro same
    have agree := sameLabels_of_sameName same
    rwa [labels_text_of_isLabel leftLabels, labels_text_of_isLabel rightLabels] at agree
  · exact sameName_of_sameLabels

/-- The labels of a name are read back from its text.  Two names have texts that name the same just
if they have the same canonical octets, and they have these just if they have as many labels and
the same ones up to ASCII case. -/
theorem comparisons_agree {left right : List String} (leftLabels : ∀ label ∈ left, IsLabel label)
    (rightLabels : ∀ label ∈ right, IsLabel label) :
    labels (text left) = left ∧
      (sameName (text left) (text right) = true ↔ canonicalOctets left = canonicalOctets right) ∧
      (canonicalOctets left = canonicalOctets right ↔ SameLabels left right) := by
  have octets := canonicalOctets_eq_iff leftLabels rightLabels
  exact ⟨labels_text_of_isLabel leftLabels,
    (sameName_text_iff leftLabels rightLabels).trans octets.symm, octets⟩

theorem comparisons_agree_accented :
    (∀ label ∈ ["École", "FR"], IsLabel label) ∧ (∀ label ∈ ["ÉCOLE", "fr"], IsLabel label) ∧
      (∀ label ∈ ["école", "fr"], IsLabel label) ∧
      labels (text ["École", "FR"]) = ["École", "FR"] ∧
      sameName (text ["École", "FR"]) (text ["ÉCOLE", "fr"]) = true ∧
      canonicalOctets ["École", "FR"] ≠ canonicalOctets ["école", "fr"] := by
  have country : IsLabel "fr" := by decide +kernel
  have mixed : ∀ label ∈ ["École", "FR"], IsLabel label :=
    List.forall_mem_cons.mpr ⟨by decide +kernel, List.forall_mem_singleton.mpr (by decide +kernel)⟩
  have large : ∀ label ∈ ["ÉCOLE", "fr"], IsLabel label :=
    List.forall_mem_cons.mpr ⟨by decide +kernel, List.forall_mem_singleton.mpr country⟩
  have small : ∀ label ∈ ["école", "fr"], IsLabel label :=
    List.forall_mem_cons.mpr ⟨by decide +kernel, List.forall_mem_singleton.mpr country⟩
  obtain ⟨readBack, named, alike⟩ := comparisons_agree mixed large
  refine ⟨mixed, large, small, readBack, ?_, ?_⟩
  · rw [named, alike, sameLabels_iff_toList]
    decide +kernel
  · rw [Ne, (comparisons_agree mixed small).2.2, sameLabels_iff_toList]
    decide +kernel

end Name

end ZonePropagation
