import ZonePropagation.Proofs.Name.Canonical
/-!
Names as text and as lists of labels.

Comparing two texts, without dots at the end and up to ASCII case, is coarser than comparing lists
of labels: the text of a list ends each label with a dot, so a label with a dot inside reads as two.
For labels without dots both comparisons agree.
-/

namespace ZonePropagation

/-! ### Letters and dots -/

namespace Text

theorem toLower_eq_dot_iff (character : Char) : character.toLower = '.' ↔ character = '.' := by
  rw [← Char.toNat_inj, ← Char.toNat_inj, toNat_toLower]
  change _ = 46 ↔ _ = 46
  split <;> omega

theorem dropEndWhile_concat {α : Type} (drops : α → Bool) (before : List α) (last : α) :
    dropEndWhile drops (before ++ [last]) =
      if drops last then dropEndWhile drops before else before ++ [last] := by
  unfold dropEndWhile
  rw [List.reverse_append, List.reverse_singleton, List.singleton_append, List.dropWhile_cons]
  split
  · rfl
  · simp

theorem map_dropEndWhile {α : Type} {drops : α → Bool} {change : α → α}
    (keeps : ∀ item, drops (change item) = drops item) (items : List α) :
    (dropEndWhile drops items).map change = dropEndWhile drops (items.map change) := by
  induction items using List.reverseRecOn with
  | nil => rfl
  | append_singleton before last ih =>
    rw [List.map_append, List.map_singleton, dropEndWhile_concat, dropEndWhile_concat, keeps]
    split
    · exact ih
    · rw [List.map_append, List.map_singleton]

end Text

theorem not_mem_of_mem_splitOn {mark : Char} {text piece : List Char}
    (isPiece : piece ∈ text.splitOn mark) : mark ∉ piece := by
  induction text generalizing piece with
  | nil =>
    rw [List.splitOn_nil, List.mem_singleton] at isPiece
    simp [isPiece]
  | cons first rest ih =>
    rw [List.splitOn_cons_eq_if_modifyHead] at isPiece
    split at isPiece
    · rcases List.mem_cons.mp isPiece with rfl | later
      · simp
      · exact ih later
    · next other =>
      obtain ⟨head, pieces, split⟩ := List.exists_cons_of_ne_nil (List.splitOn_ne_nil mark rest)
      rw [split] at isPiece ih
      rcases List.mem_cons.mp isPiece with rfl | later
      · intro member
        rcases List.mem_cons.mp member with rfl | inHead
        · exact other (beq_self_eq_true _)
        · exact ih (.head _) inHead
      · exact ih (.tail _ later)

theorem splitOn_map {mark : Char} {change : Char → Char}
    (keeps : ∀ character, change character = mark ↔ character = mark) (text : List Char) :
    (text.map change).splitOn mark = (text.splitOn mark).map (List.map change) := by
  induction text with
  | nil => rfl
  | cons first rest ih =>
    obtain ⟨head, pieces, split⟩ := List.exists_cons_of_ne_nil (List.splitOn_ne_nil mark rest)
    rw [List.map_cons, List.splitOn_cons_eq_if_modifyHead, List.splitOn_cons_eq_if_modifyHead, ih,
      split]
    by_cases same : first = mark
    · rw [if_pos (by simpa using (keeps first).mpr same), if_pos (by simpa using same)]
      rfl
    · rw [if_neg (by simpa using same ∘ (keeps first).mp), if_neg (by simpa using same)]
      rfl

namespace Name

theorem splitDots_eq (text : List Char) : splitDots text = text.splitOn '.' := by
  fun_induction splitDots text with
  | case1 => rfl
  | case2 rest ih =>
    rw [List.splitOn_cons_eq_if_modifyHead, if_pos (beq_self_eq_true _), ih]
  | case3 first rest notDot head pieces split ih =>
    rw [List.splitOn_cons_eq_if_modifyHead, if_neg (by simpa using notDot), ← ih, split]
    rfl
  | case4 first rest notDot split ih => exact absurd (ih ▸ split) (List.splitOn_ne_nil '.' rest)

/-- The parts of a text between its dots that are not empty. -/
def parts (text : List Char) : List (List Char) :=
  (text.splitOn '.').filter fun piece => !piece.isEmpty

theorem labels_eq (text : String) : labels text = (parts text.toList).map String.ofList := by
  rw [labels, splitDots_eq, parts]

theorem parts_dropEndWhile (text : List Char) :
    parts (Text.dropEndWhile (· == '.') text) = parts text := by
  induction text using List.reverseRecOn with
  | nil => rfl
  | append_singleton before last ih =>
    rw [Text.dropEndWhile_concat]
    split
    · next dot =>
      rw [ih, beq_iff_eq.mp dot, parts, parts, List.splitOn_append_cons_self, List.filter_append]
      simp
    · rfl

theorem parts_map_toLower (text : List Char) :
    parts (text.map Char.toLower) = (parts text).map (List.map Char.toLower) := by
  rw [parts, splitOn_map Text.toLower_eq_dot_iff, List.filter_map, parts]
  congr 2
  funext piece
  simp

/-! ### Labels of a text -/

theorem labels_toLower (text : String) :
    labels text.toLower = (labels text).map String.toLower := by
  rw [labels_eq, labels_eq, String.toLower, String.toList_map, parts_map_toLower, List.map_map,
    List.map_map]
  refine List.map_congr_left fun piece _ => String.toList_inj.mp ?_
  simp [String.toLower]

theorem labels_folded (text : String) :
    labels (folded text) = (labels text).map String.toLower := by
  rw [folded, labels_toLower, labels_eq, Text.trimDots, String.toList_ofList, parts_dropEndWhile,
    ← labels_eq]

theorem dot_not_mem_label {text label : String} (member : label ∈ labels text) :
    '.' ∉ label.toList := by
  rw [labels_eq] at member
  obtain ⟨piece, kept, rfl⟩ := List.mem_map.mp member
  rw [String.toList_ofList]
  exact not_mem_of_mem_splitOn (List.mem_filter.mp kept).1

/-! ### The text of labels -/

def dotted (names : List String) : List Char :=
  names.flatMap fun label => label.toList ++ ['.']

theorem toList_text {names : List String} (nonempty : names ≠ []) :
    (text names).toList = dotted names := by
  have joined (names : List String) :
      (names.foldr (fun label rest => label ++ "." ++ rest) "").toList = dotted names := by
    induction names with
    | nil => rfl
    | cons label names ih =>
      rw [List.foldr_cons, String.toList_append, String.toList_append, ih, dotted, dotted,
        List.flatMap_cons]
      rfl
  cases names with
  | nil => exact absurd rfl nonempty
  | cons label names => exact joined (label :: names)

theorem endsWith_dot_iff (text : String) :
    text.endsWith "." = true ↔ text.toList.getLast? = some '.' := by
  rw [← String.endsWith_toSlice, String.Slice.endsWith_string_iff, String.copy_toSlice]
  exact List.singleton_suffix_iff_getLast?_eq_some

theorem getLast?_text (names : List String) : (text names).toList.getLast? = some '.' := by
  induction names using List.reverseRecOn with
  | nil => rfl
  | append_singleton before last _ =>
    rw [toList_text (by simp), dotted, List.flatMap_append, List.flatMap_singleton,
      ← List.append_assoc, List.getLast?_concat]

theorem parts_dotted {names : List String}
    (whole : ∀ label ∈ names, label.isEmpty = false ∧ '.' ∉ label.toList) :
    parts (dotted names) = names.map String.toList := by
  induction names with
  | nil => rfl
  | cons label names ih =>
    obtain ⟨nonempty, dotless⟩ := whole label (.head _)
    have later := ih fun other member => whole other (.tail _ member)
    have spelled : label.toList ≠ [] := by
      intro none
      rw [String.toList_eq_nil_iff.mp none] at nonempty
      cases nonempty
    unfold parts at later ⊢
    rw [dotted, List.flatMap_cons, List.append_assoc, List.singleton_append,
      List.splitOn_append_cons_self_of_not_mem dotless,
      List.filter_cons_of_pos (by simpa using spelled), ← dotted, later, List.map_cons]

theorem labels_text {names : List String}
    (whole : ∀ label ∈ names, label.isEmpty = false ∧ '.' ∉ label.toList) :
    labels (text names) = names := by
  rw [labels_eq]
  by_cases empty : names = []
  · rw [empty]
    rfl
  · rw [toList_text empty, parts_dotted whole, List.map_map]
    exact (List.map_congr_left fun label _ => String.ofList_toList).trans (List.map_id names)

theorem text_toLower (names : List String) :
    (text names).toLower = text (names.map String.toLower) := by
  apply String.toList_inj.mp
  rw [String.toLower, String.toList_map]
  by_cases empty : names = []
  · rw [empty]
    rfl
  · rw [toList_text empty, toList_text (by simpa using empty), dotted, dotted, List.map_flatMap,
      List.flatMap_map]
    simp [String.toLower]

/-! ### Comparing names -/

theorem toList_folded (text : String) :
    (folded text).toList = (Text.dropEndWhile (· == '.') text.toList).map Char.toLower := by
  rw [folded, Text.trimDots, String.toLower, String.toList_map, String.toList_ofList]

theorem folded_toLower (text : String) : folded text.toLower = folded text := by
  apply String.toList_inj.mp
  rw [toList_folded, toList_folded, String.toLower, String.toList_map, ← Text.map_dropEndWhile,
    List.map_map]
  · exact List.map_congr_left fun character _ => Char.toLower_toLower_eq_toLower character
  · intro character
    rw [Bool.eq_iff_iff, beq_iff_eq, beq_iff_eq]
    exact Text.toLower_eq_dot_iff character

theorem sameName_iff {left right : String} :
    sameName left right = true ↔ folded left = folded right := beq_iff_eq

theorem sameName_iff_toList {left right : String} : sameName left right = true ↔
    (Text.dropEndWhile (· == '.') left.toList).map Char.toLower =
      (Text.dropEndWhile (· == '.') right.toList).map Char.toLower := by
  rw [sameName_iff, ← String.toList_inj, toList_folded, toList_folded]

/-- The lists have as many labels, and these agree one by one up to ASCII case. -/
def SameLabels (left right : List String) : Prop :=
  left.map String.toLower = right.map String.toLower

instance (left right : List String) : Decidable (SameLabels left right) :=
  inferInstanceAs (Decidable (_ = _))

theorem sameLabels_of_sameName {left right : String} (same : sameName left right = true) :
    SameLabels (labels left) (labels right) := by
  rw [SameLabels, ← labels_folded, ← labels_folded, sameName_iff.mp same]

theorem sameName_of_sameLabels {left right : List String} (same : SameLabels left right) :
    sameName (text left) (text right) = true := by
  rw [sameName_iff, ← folded_toLower (text left), ← folded_toLower (text right), text_toLower,
    text_toLower, same]

/-- A list whose text names the same as a zone has the labels of the zone just if none of its labels
has a dot inside. -/
theorem sameLabels_iff_dotless {names : List String} {zone : String}
    (nonempty : ∀ label ∈ names, label.isEmpty = false)
    (same : sameName (text names) zone = true) :
    SameLabels names (labels zone) ↔ ∀ label ∈ names, '.' ∉ label.toList := by
  constructor
  · intro agree label member dotInside
    have lowered : label.toLower ∈ (labels zone).map String.toLower :=
      agree ▸ List.mem_map_of_mem member
    obtain ⟨other, inZone, alike⟩ := List.mem_map.mp lowered
    have dotLowered : '.' ∈ label.toLower.toList := by
      rw [String.toLower, String.toList_map]
      exact List.mem_map.mpr ⟨'.', dotInside, rfl⟩
    rw [← alike, String.toLower, String.toList_map] at dotLowered
    obtain ⟨character, inOther, lowersToDot⟩ := List.mem_map.mp dotLowered
    rw [(Text.toLower_eq_dot_iff character).mp lowersToDot] at inOther
    exact dot_not_mem_label inZone inOther
  · intro dotless
    have agree := sameLabels_of_sameName same
    rwa [labels_text fun label member => ⟨nonempty label member, dotless label member⟩] at agree

end Name

end ZonePropagation
