import Mathlib
import ZonePropagation.Proofs.Name.Labels
import ZonePropagation.Proofs.Nameserver.TextForm
import ZonePropagation.Proofs.Octets.Placement
import ZonePropagation.Proofs.Registry.Overlap
import ZonePropagation.Proofs.Time.Order
/-!
What a criterion selects of the zones in a database table.

The process and the tables hold the same zones, and test all conditions of a criterion alike but
for the name.  The process compares names up to ASCII case and all dots at the end; a table
normalizes only the name that is asked for, and compares it with the stored name as it is.  So they
find the same zones exactly when no zone on which the comparisons differ comes before the limit, and
they always do for names in ASCII letters with at most one dot at the end.
-/

namespace ZonePropagation

/-! ### Limited selections of a list -/

section Limits

variable {α : Type}

theorem forall_place_cons {first : α} {rest : List α} {holds : List α → α → Prop} :
    (∀ before item after, first :: rest = before ++ item :: after → holds before item) ↔
      holds [] first ∧
        ∀ before item after, rest = before ++ item :: after → holds (first :: before) item := by
  constructor
  · intro each
    exact ⟨each [] first rest rfl, fun before item after split =>
      each (first :: before) item after (congrArg (first :: ·) split)⟩
  · rintro ⟨here, there⟩ before item after split
    cases before with
    | nil =>
        cases split
        exact here
    | cons head before =>
        cases split
        exact there before item after rfl

theorem first_mem_take_filter_iff {test : α → Bool} {first : α} {rest : List α}
    (fresh : first ∉ rest) (limit : Nat) :
    first ∈ ((first :: rest).filter test).take (limit + 1) ↔ test first = true := by
  by_cases chosen : test first = true
  · simp [chosen]
  · rw [List.filter_cons_of_neg chosen]
    refine iff_of_false (fun member => fresh ?_) chosen
    exact (List.mem_filter.mp (List.mem_of_mem_take member)).1

/-- Two selections of a list agree under a limit when, before every item on which they differ, they
have already taken as many items as the limit allows. -/
theorem take_filter_eq_iff {left right : α → Bool} {items : List α} (distinct : items.Nodup)
    (limit : Nat) :
    (items.filter left).take limit = (items.filter right).take limit ↔
      ∀ before item after, items = before ++ item :: after → left item ≠ right item →
        limit ≤ before.countP fun other => left other && right other := by
  induction items generalizing limit with
  | nil => simp
  | cons first rest ih =>
      obtain ⟨fresh, distinct⟩ := List.nodup_cons.mp distinct
      rw [forall_place_cons]
      cases limit with
      | zero => simp
      | succ limit =>
          by_cases differ : left first = right first
          · cases chosen : right first with
            | true =>
                rw [chosen] at differ
                rw [List.filter_cons_of_pos differ, List.filter_cons_of_pos chosen,
                  List.take_succ_cons, List.take_succ_cons, List.cons_inj_right, ih distinct]
                simp [differ, chosen]
            | false =>
                rw [chosen] at differ
                rw [List.filter_cons_of_neg (by simp [differ]),
                  List.filter_cons_of_neg (by simp [chosen]), ih distinct]
                simp [differ, chosen]
          · refine iff_of_false (fun same => differ ?_) fun ⟨early, _⟩ => ?_
            · have taken := @first_mem_take_filter_iff _ left _ _ fresh limit
              rw [same, first_mem_take_filter_iff fresh limit] at taken
              exact (Bool.eq_iff_iff.mpr taken).symm
            · exact absurd (early differ) (by simp)

theorem ZoneCriterion.limited_filter_eq_iff (criterion : ZoneCriterion) {left right : α → Bool}
    {items : List α} (distinct : items.Nodup) :
    criterion.limited (items.filter left) = criterion.limited (items.filter right) ↔
      ∀ before item after, items = before ++ item :: after → left item ≠ right item →
        ∃ limit, criterion.limit = some limit ∧
          limit ≤ before.countP fun other => left other && right other := by
  unfold limited
  cases criterion.limit with
  | some limit => simpa using take_filter_eq_iff distinct limit
  | none =>
      simp only [reduceCtorEq, false_and, exists_false, imp_false, not_not]
      constructor
      · rintro same before item after rfl
        have member : item ∈ before ++ item :: after := by simp
        have chosen : item ∈ (before ++ item :: after).filter left ↔
            item ∈ (before ++ item :: after).filter right := by rw [same]
        rw [List.mem_filter, List.mem_filter, and_congr_right_iff] at chosen
        exact Bool.eq_iff_iff.mpr (chosen member)
      · intro alike
        refine List.filter_congr fun item member => ?_
        obtain ⟨before, after, split⟩ := List.append_of_mem member
        exact alike before item after split

end Limits

theorem pairwise_lt_of_le {α β : Type} [LinearOrder β] {value : α → β} {items : List α}
    (ordered : items.Pairwise fun left right => value left ≤ value right)
    (distinct : (items.map value).Nodup) :
    items.Pairwise fun left right => value left < value right :=
  (ordered.and (List.pairwise_map.mp distinct)).imp fun ⟨before, apart⟩ =>
    lt_of_le_of_ne before apart

/-! ### Zones in the order of time -/

namespace Zone

def Older (left right : Zone) : Prop := left.updatedAt < right.updatedAt

instance (left right : Zone) : Decidable (Older left right) :=
  inferInstanceAs (Decidable (left.updatedAt < right.updatedAt))

def byTime (zones : List Zone) : List Zone :=
  zones.mergeSort fun left right => left.updatedAt ≤ right.updatedAt

theorem byTime_perm (zones : List Zone) : (byTime zones).Perm zones :=
  List.mergeSort_perm _ _

variable {zones : List Zone}

theorem byTime_pairwise (times : (zones.map updatedAt).Nodup) : (byTime zones).Pairwise Older := by
  have trans : ∀ first second third : Zone, decide (first.updatedAt ≤ second.updatedAt) = true →
      decide (second.updatedAt ≤ third.updatedAt) = true →
      decide (first.updatedAt ≤ third.updatedAt) = true := by
    simp only [decide_eq_true_eq]
    exact fun _ _ _ => le_trans
  have total : ∀ left right : Zone,
      (decide (left.updatedAt ≤ right.updatedAt) || decide (right.updatedAt ≤ left.updatedAt)) =
        true := by
    simp only [Bool.or_eq_true, decide_eq_true_eq]
    exact fun _ _ => le_total _ _
  exact pairwise_lt_of_le ((List.pairwise_mergeSort trans total zones).imp of_decide_eq_true)
    (((byTime_perm zones).map updatedAt).nodup_iff.mpr times)

theorem eq_byTime {sorted : List Zone} (times : (zones.map updatedAt).Nodup)
    (perm : sorted.Perm zones) (increasing : sorted.Pairwise Older) : sorted = byTime zones :=
  (perm.trans (byTime_perm zones).symm).eq_of_pairwise
    (fun _ _ _ _ first second => absurd first (lt_asymm second)) increasing (byTime_pairwise times)

theorem byTime_filter (times : (zones.map updatedAt).Nodup) (test : Zone → Bool) :
    byTime (zones.filter test) = (byTime zones).filter test :=
  (eq_byTime (times.sublist (List.filter_sublist.map updatedAt)) ((byTime_perm zones).filter test)
    ((byTime_pairwise times).filter test)).symm

theorem countP_before {before after : List Zone} {zone : Zone}
    (times : (zones.map updatedAt).Nodup) (split : byTime zones = before ++ zone :: after)
    (test : Zone → Bool) :
    before.countP test = zones.countP fun other => decide (other.Older zone) && test other := by
  have increasing := byTime_pairwise times
  rw [split, List.pairwise_append, List.pairwise_cons] at increasing
  obtain ⟨-, ⟨later, -⟩, across⟩ := increasing
  have early : before.countP test =
      before.countP fun other => decide (other.Older zone) && test other := by
    refine List.countP_congr fun other member => ?_
    simp [across other member zone (List.mem_cons_self ..)]
  have late : (zone :: after).countP (fun other => decide (other.Older zone) && test other) = 0 := by
    rw [List.countP_eq_zero]
    intro other member
    have notOlder : ¬other.Older zone := by
      rcases List.mem_cons.mp member with rfl | member
      · exact lt_irrefl _
      · exact lt_asymm (later other member)
    simp [notOlder]
  rw [← (byTime_perm zones).countP_eq, split, List.countP_append, late, early, Nat.add_zero]

end Zone

/-! ### Plain names -/

namespace Name

/-- The name is an ASCII stem that does not end with a dot, with at most one dot after it. -/
structure HasStem (name : String) (stem : List Char) : Prop where
  ascii : ∀ character ∈ stem, character.toNat < 128
  undotted : stem.getLast? ≠ some '.'
  spelled : name.toList = stem ∨ name.toList = stem ++ ['.']

theorem HasStem.toLower_map {name : String} {stem : List Char} (has : HasStem name stem) :
    (∀ character ∈ stem.map Char.toLower, character.toNat < 128) ∧
      (stem.map Char.toLower).getLast? ≠ some '.' := by
  constructor
  · rw [List.forall_mem_map]
    intro character member
    have within := has.ascii character member
    rw [Text.toNat_toLower]
    split <;> omega
  · rw [List.getLast?_map]
    intro dotted
    obtain ⟨last, here, lowered⟩ := Option.map_eq_some_iff.mp dotted
    rw [(Text.toLower_eq_dot_iff last).mp lowered] at here
    exact has.undotted here

theorem HasStem.lowercase {name : String} {stem : List Char} (has : HasStem name stem) :
    (Text.lowercase name).toList = name.toList.map Char.toLower := by
  refine Text.toList_lowercase fun character member => ?_
  rcases has.spelled with spelled | spelled
  · exact has.ascii character (spelled ▸ member)
  · rcases List.mem_append.mp (spelled ▸ member) with listed | dot
    · exact has.ascii character listed
    · rw [List.mem_singleton.mp dot]
      decide

theorem HasStem.normalName {name : String} {stem : List Char} (has : HasStem name stem) :
    (Zone.normalName name).toList = stem.map Char.toLower ++ ['.'] := by
  have dotless := has.toLower_map.2
  unfold Zone.normalName
  dsimp only
  rcases has.spelled with spelled | spelled
  · rw [if_neg (by rwa [endsWith_dot_iff, has.lowercase, spelled]), String.toList_append,
      has.lowercase, spelled]
    rfl
  · have dotted : (Text.lowercase name).toList = stem.map Char.toLower ++ ['.'] := by
      rw [has.lowercase, spelled, List.map_append]
      rfl
    rw [if_pos (by rw [endsWith_dot_iff, dotted, List.getLast?_concat]), dotted]

theorem dropEndWhile_dots {stem : List Char} (undotted : stem.getLast? ≠ some '.') :
    Text.dropEndWhile (· == '.') stem = stem := by
  induction stem using List.reverseRecOn with
  | nil => rfl
  | append_singleton before last _ =>
      refine Text.dropEndWhile_append ?_ before
      simpa using undotted

theorem HasStem.trimmed {name : String} {stem : List Char} (has : HasStem name stem) :
    Text.dropEndWhile (· == '.') name.toList = stem := by
  rw [← dropEndWhile_dots has.undotted]
  rcases has.spelled with spelled | spelled
  · rw [spelled, dropEndWhile_dots has.undotted]
  · simp [spelled, Text.dropEndWhile]

theorem HasStem.sameName_eq {left right : String} {leftStem rightStem : List Char}
    (hasLeft : HasStem left leftStem) (hasRight : HasStem right rightStem) :
    sameName left right =
      decide (leftStem.map Char.toLower = rightStem.map Char.toLower) := by
  rw [Bool.eq_iff_iff, sameName_iff_toList, hasLeft.trimmed, hasRight.trimmed, decide_eq_true_iff]

theorem HasStem.sameName_iff {left right : String} {leftStem rightStem : List Char}
    (hasLeft : HasStem left leftStem) (hasRight : HasStem right rightStem) :
    sameName left (Zone.normalName right) = true ↔
      Zone.normalName right = Zone.normalName left := by
  have normal : HasStem (Zone.normalName right) (rightStem.map Char.toLower) :=
    ⟨hasRight.toLower_map.1, hasRight.toLower_map.2, .inr hasRight.normalName⟩
  have twice : (rightStem.map Char.toLower).map Char.toLower = rightStem.map Char.toLower := by
    rw [List.map_map]
    exact List.map_congr_left fun character _ => (Text.isSmall_toLower character).toLower_eq
  rw [hasLeft.sameName_eq normal, twice, decide_eq_true_iff, ← String.toList_inj,
    hasLeft.normalName, hasRight.normalName, List.append_left_inj]
  exact eq_comm

def Plain (name : String) : Prop := ∃ stem, HasStem name stem

end Name

/-! ### Rows of the zones -/

namespace ZoneCriterion

structure InMillis (criterion : ZoneCriterion) : Prop where
  before : ∀ bound ∈ criterion.updatedBefore, bound.OnMilli
  after : ∀ bound ∈ criterion.updatedAfter, bound.OnMilli

/-- The zone meets every condition of the criterion as the tables test it. -/
def looksUp (criterion : ZoneCriterion) (zone : Zone) : Bool :=
  ({ criterion with name := none } : ZoneCriterion).selects zone &&
    holds criterion.name fun name => zone.name == Zone.normalName name

/-- The zone meets all conditions but for the name, and the process and the tables differ on the
name. -/
def Misjudges (criterion : ZoneCriterion) (zone : Zone) : Prop :=
  ({ criterion with name := none } : ZoneCriterion).selects zone = true ∧
    ∃ name, criterion.name = some name ∧
      ¬(Name.sameName name zone.name = true ↔ zone.name = Zone.normalName name)

theorem selects_eq (criterion : ZoneCriterion) (zone : Zone) :
    criterion.selects zone = (({ criterion with name := none } : ZoneCriterion).selects zone &&
      holds criterion.name fun name => Name.sameName name zone.name) := by
  simp only [selects, holds]
  ac_rfl

variable {criterion : ZoneCriterion} {name : String}

theorem selects_of_name (given : criterion.name = some name) (zone : Zone) :
    criterion.selects zone = (({ criterion with name := none } : ZoneCriterion).selects zone &&
      Name.sameName name zone.name) := by
  rw [selects_eq, given, holds]

theorem looksUp_of_name (given : criterion.name = some name) (zone : Zone) :
    criterion.looksUp zone = (({ criterion with name := none } : ZoneCriterion).selects zone &&
      zone.name == Zone.normalName name) := by
  rw [looksUp, given, holds]

theorem misjudges_iff (criterion : ZoneCriterion) (zone : Zone) :
    criterion.Misjudges zone ↔ criterion.selects zone ≠ criterion.looksUp zone := by
  unfold Misjudges
  cases given : criterion.name with
  | none =>
      rw [selects_eq criterion zone, looksUp, given]
      simp [holds]
  | some name =>
      rw [selects_of_name given, looksUp_of_name given]
      simp only [Option.some_inj, exists_eq_left']
      cases ({ criterion with name := none } : ZoneCriterion).selects zone with
      | false => simp
      | true => cases Name.sameName name zone.name <;> simp

theorem limited_map {α β : Type} (criterion : ZoneCriterion) (change : α → β) (items : List α) :
    criterion.limited (items.map change) = (criterion.limited items).map change := by
  unfold limited
  cases criterion.limit with
  | none => rfl
  | some limit => exact List.map_take.symm

theorem holds_congr {α : Type} {condition : Option α} {left right : α → Bool}
    (alike : ∀ value ∈ condition, left value = right value) :
    holds condition left = holds condition right := by
  cases condition with
  | none => rfl
  | some value => exact alike value rfl

theorem limited_sublist {α : Type} (criterion : ZoneCriterion) (items : List α) :
    (criterion.limited items).Sublist items := by
  unfold limited
  split
  · exact List.take_sublist _ _
  · exact List.Sublist.refl _

end ZoneCriterion

namespace Registry

/-- The time of the zone is one that can be read of a number of milliseconds. -/
def Dated (zone : Zone) : Prop := zone.updatedAt.IsWhole

instance (zone : Zone) : Decidable (Dated zone) := inferInstanceAs (Decidable (_ ∧ _))

namespace ZoneRow

theorem toZone_ofZone {zone : Zone} (dated : Dated zone) : (ofZone none zone).toZone = .ok zone := by
  have time : Status.TableRow.timeOf zone.updatedAt.toMillis = zone.updatedAt := by
    rw [Status.TableRow.timeOf, ← dated.1, if_pos dated.2]
  have read := toZone_replacement (ofZone none zone) none zone
  rw [time] at read
  exact read

theorem meets_ofZone {criterion : ZoneCriterion} (bounds : criterion.InMillis) {zone : Zone}
    (dated : Dated zone) : (ofZone none zone).meets criterion = criterion.looksUp zone := by
  have words : (criterion.statuses.any fun status => zone.status.text == status.text) =
      criterion.statuses.contains zone.status := by
    rw [List.contains_eq_any_beq]
    congr 1
    funext status
    rw [Bool.eq_iff_iff, beq_iff_eq, beq_iff_eq, ZoneStatus.text_injective.eq_iff]
  have before : ZoneCriterion.holds criterion.updatedBefore
      (fun bound => decide (zone.updatedAt.toMillis < bound.toMillis)) =
        ZoneCriterion.holds criterion.updatedBefore fun bound => decide (zone.updatedAt < bound) :=
    ZoneCriterion.holds_congr fun bound given =>
      decide_eq_decide.mpr (dated.onMilli.lt_iff (bounds.before bound given)).symm
  have after : ZoneCriterion.holds criterion.updatedAfter
      (fun bound => decide (bound.toMillis < zone.updatedAt.toMillis)) =
        ZoneCriterion.holds criterion.updatedAfter fun bound => decide (bound < zone.updatedAt) :=
    ZoneCriterion.holds_congr fun bound given =>
      decide_eq_decide.mpr ((bounds.after bound given).lt_iff dated.onMilli).symm
  change (ZoneCriterion.holds criterion.id (fun id => zone.id == id) &&
    ZoneCriterion.holds criterion.name (fun name => zone.name == Zone.normalName name) &&
    ZoneCriterion.holds criterion.poolId (fun poolId => zone.poolId == poolId) &&
    (criterion.statuses.isEmpty ||
      criterion.statuses.any fun status => zone.status.text == status.text) &&
    ZoneCriterion.holds criterion.updatedBefore
      (fun bound => decide (zone.updatedAt.toMillis < bound.toMillis)) &&
    ZoneCriterion.holds criterion.updatedAfter
      (fun bound => decide (bound.toMillis < zone.updatedAt.toMillis))) = _
  rw [words, before, after]
  simp only [ZoneCriterion.looksUp, ZoneCriterion.selects, ZoneCriterion.holds]
  ac_rfl

theorem precedes_trans (criterion : ZoneCriterion) {first second third : ZoneRow}
    (before : precedes criterion first second = true)
    (after : precedes criterion second third = true) : precedes criterion first third = true := by
  simp only [precedes, Bool.or_eq_true, Bool.and_eq_true, decide_eq_true_eq, beq_iff_eq] at *
  rcases before with before | ⟨sameBefore, before⟩
  · exact .inl (by omega)
  · rcases after with after | ⟨sameAfter, after⟩
    · exact .inl (by omega)
    · refine .inr ⟨by omega, ?_⟩
      rcases before with any | before
      · exact .inl any
      · rcases after with any | after
        · exact .inl any
        · exact .inr (String.le_trans before after)

theorem le_of_precedes {criterion : ZoneCriterion} {left right : ZoneRow}
    (ordered : precedes criterion left right = true) : left.updatedAt ≤ right.updatedAt := by
  simp only [precedes, Bool.or_eq_true, Bool.and_eq_true, decide_eq_true_eq, beq_iff_eq] at ordered
  omega

theorem precedes_total (criterion : ZoneCriterion) (left right : ZoneRow) :
    (precedes criterion left right || precedes criterion right left) = true := by
  simp only [precedes, Bool.or_eq_true, Bool.and_eq_true, decide_eq_true_eq, beq_iff_eq]
  rcases lt_trichotomy left.updatedAt right.updatedAt with before | same | after
  · exact .inl (.inl before)
  · rcases String.le_total left.status right.status with ordered | ordered
    · exact .inl (.inr ⟨same, .inr ordered⟩)
    · exact .inr (.inr ⟨same.symm, .inr ordered⟩)
  · exact .inr (.inl after)

theorem mergeSort_ofZone (criterion : ZoneCriterion) {zones : List Zone}
    (times : (zones.map Zone.updatedAt).Nodup) (dated : ∀ zone ∈ zones, Dated zone) :
    (zones.map (ofZone none)).mergeSort (precedes criterion) =
      (Zone.byTime zones).map (ofZone none) := by
  have perm := List.mergeSort_perm (zones.map (ofZone none)) (precedes criterion)
  have distinct : ((zones.map (ofZone none)).map updatedAt).Nodup := by
    rw [List.map_map]
    refine (List.Nodup.of_map _ times).map_on fun left leftHeld right rightHeld same => ?_
    have sameTime := ((dated left leftHeld).onMilli.toMillis_inj
      (dated right rightHeld).onMilli).mp same
    exact List.inj_on_of_nodup_map times leftHeld rightHeld sameTime
  have ordered := @List.pairwise_mergeSort _ (precedes criterion)
    (fun _ _ _ => precedes_trans criterion) (precedes_total criterion) (zones.map (ofZone none))
  have increasing := pairwise_lt_of_le (ordered.imp le_of_precedes)
    ((perm.map updatedAt).nodup_iff.mpr distinct)
  refine (perm.trans ((Zone.byTime_perm zones).map (ofZone none)).symm).eq_of_pairwise
    (fun _ _ _ _ first second => absurd first (lt_asymm second)) increasing ?_
  refine List.pairwise_map.mpr ((Zone.byTime_pairwise times).imp_of_mem ?_)
  intro left right leftHeld rightHeld older
  have leftDated := dated left ((Zone.byTime_perm zones).subset leftHeld)
  have rightDated := dated right ((Zone.byTime_perm zones).subset rightHeld)
  exact (leftDated.onMilli.lt_iff rightDated.onMilli).mp older

end ZoneRow

/-! ### The zones in both registries -/

def Memory.filled (zones : List Zone) : Memory := zones.foldl Memory.insertZone {}

def Table.filled (zones : List Zone) : Except Fault Table :=
  zones.foldlM (fun table zone => table.createZone .admin zone) {}

theorem Memory.mem_insertZone {memory : Memory} {zone held : Zone}
    (member : held ∈ (memory.insertZone zone).zones) : held ∈ memory.zones ∨ held = zone := by
  unfold insertZone at member
  split at member
  · obtain ⟨other, listed, rfl⟩ := List.mem_map.mp member
    split
    · exact .inr rfl
    · exact .inl listed
  · rcases List.mem_append.mp member with listed | new
    · exact .inl listed
    · exact .inr (List.mem_singleton.mp new)

theorem Memory.ids_insertZone (memory : Memory) (zone : Zone)
    (distinct : (memory.zones.map Zone.id).Nodup) :
    ((memory.insertZone zone).zones.map Zone.id).Nodup := by
  unfold insertZone
  split
  · have sameIds : (memory.zones.map fun other => if other.id == zone.id then zone else other).map
        Zone.id = memory.zones.map Zone.id := by
      rw [List.map_map]
      refine List.map_congr_left fun other _ => ?_
      by_cases same : other.id = zone.id
      · simp [same]
      · simp [same]
    rwa [sameIds]
  · next unknown =>
    rw [Bool.not_eq_true, Option.isSome_eq_false_iff, Option.isNone_iff_eq_none, zone?,
      List.find?_eq_none] at unknown
    rw [List.map_append, List.map_singleton, List.nodup_append]
    refine ⟨distinct, List.nodup_singleton _, ?_⟩
    rintro id member _ new rfl
    obtain ⟨other, listed, rfl⟩ := List.mem_map.mp member
    rw [List.mem_singleton] at new
    exact unknown other listed (beq_iff_eq.mpr new)

/-- The table is open and has a row for every zone of the process, in the same order. -/
structure Twins (memory : Memory) (table : Table) : Prop where
  opened : table.closed = false
  rows : table.zones = memory.zones.map (ZoneRow.ofZone none)

variable {memory : Memory} {table : Table}

theorem Twins.contains (twins : Twins memory table) (id : String) :
    table.contains id = memory.contains id := by
  rw [Bool.eq_iff_iff, Table.contains, twins.rows, List.any_map, List.any_eq_true,
    Memory.contains, Memory.zone?, List.find?_isSome]
  rfl

theorem Twins.insert (twins : Twins memory table) {zone : Zone}
    (free : ∀ held ∈ memory.zones, held.name = zone.name → held.id = zone.id) :
    ∃ later, table.createZone .admin zone = .ok later ∧ Twins (memory.insertZone zone) later := by
  have accepted : ∀ other ∈ table.zones,
      other.name = (ZoneRow.ofZone none zone).name → other.id = (ZoneRow.ofZone none zone).id := by
    rw [twins.rows, List.forall_mem_map]
    exact free
  refine ⟨_, Table.putRow_eq_ok_iff.mpr ⟨⟨twins.opened, accepted⟩, rfl⟩, ?_⟩
  have known : table.contains (ZoneRow.ofZone Caller.admin.tenant? zone).id =
    (memory.zone? zone.id).isSome := twins.contains zone.id
  unfold Memory.insertZone
  rw [known]
  by_cases held : (memory.zone? zone.id).isSome = true
  · rw [if_pos held, if_pos held]
    refine ⟨twins.opened, ?_⟩
    simp only [Table.rewrite, twins.rows, List.map_map]
    refine List.map_congr_left fun other _ => ?_
    by_cases same : other.id = zone.id
    · simp [same, ZoneRow.ofZone, Table.replacement]
    · simp [same, ZoneRow.ofZone]
  · rw [if_neg held, if_neg held]
    refine ⟨twins.opened, ?_⟩
    rw [twins.rows, List.map_append]
    rfl

/-- What both registries are after zones with distinct names were put into them. -/
structure Filled (zones : List Zone) (memory : Memory) (table : Table) : Prop
    extends Twins memory table where
  ids : (memory.zones.map Zone.id).Nodup
  given : ∀ held ∈ memory.zones, held ∈ zones

theorem exists_filled {zones : List Zone} (names : (zones.map Zone.name).Nodup) :
    ∃ table, Table.filled zones = .ok table ∧ Filled zones (Memory.filled zones) table := by
  induction zones using List.reverseRecOn with
  | nil => exact ⟨{}, rfl, ⟨rfl, rfl⟩, List.nodup_nil, by simp [Memory.filled]⟩
  | append_singleton zones zone ih =>
      rw [List.map_append, List.nodup_append] at names
      obtain ⟨names, -, apart⟩ := names
      obtain ⟨table, made, filled⟩ := ih names
      have free : ∀ held ∈ (Memory.filled zones).zones, held.name = zone.name →
          held.id = zone.id := by
        intro held member same
        exact absurd same (apart _ (List.mem_map_of_mem (filled.given held member)) _ (by simp))
      obtain ⟨later, created, twins⟩ := filled.toTwins.insert free
      have put : Memory.filled (zones ++ [zone]) = (Memory.filled zones).insertZone zone := by
        rw [Memory.filled, List.foldl_append]
        rfl
      rw [put]
      refine ⟨later, ?_, twins, Memory.ids_insertZone _ _ filled.ids, ?_⟩
      · exact (foldlM_concat made zone).trans created
      · intro held member
        rcases Memory.mem_insertZone member with listed | rfl
        · exact List.mem_append_left _ (filled.given held listed)
        · simp

theorem Filled.times {zones : List Zone} (filled : Filled zones memory table)
    (times : (zones.map Zone.updatedAt).Nodup) : (memory.zones.map Zone.updatedAt).Nodup := by
  refine (List.Nodup.of_map _ filled.ids).map_on fun left leftHeld right rightHeld same => ?_
  exact List.inj_on_of_nodup_map times (filled.given left leftHeld) (filled.given right rightHeld)
    same

theorem mapM_toZone {zones : List Zone} (dated : ∀ zone ∈ zones, Dated zone) :
    (zones.map (ZoneRow.ofZone none)).mapM ZoneRow.toZone = .ok zones := by
  induction zones with
  | nil => rfl
  | cons first rest ih =>
      obtain ⟨here, there⟩ := List.forall_mem_cons.mp dated
      rw [List.map_cons, List.mapM_cons, ZoneRow.toZone_ofZone here, ok_bind, ih there]
      rfl

theorem Twins.findZones (twins : Twins memory table) {criterion : ZoneCriterion}
    (bounds : criterion.InMillis)
    (times : (memory.zones.map Zone.updatedAt).Nodup) (dated : ∀ zone ∈ memory.zones, Dated zone) :
    table.findZones .admin criterion =
      .ok (criterion.limited (Zone.byTime (memory.zones.filter criterion.looksUp))) := by
  have guarded : table.guard = .ok () := by
    unfold Table.guard
    rw [twins.opened]
    rfl
  have tests : memory.zones.filter ((fun row => ZoneRow.meets criterion row &&
      ZoneRow.visibleTo .admin row) ∘ ZoneRow.ofZone none) =
        memory.zones.filter criterion.looksUp := by
    refine List.filter_congr fun zone member => ?_
    rw [← ZoneRow.meets_ofZone bounds (dated zone member), ← Bool.and_true (ZoneRow.meets ..)]
    rfl
  have selected : table.select .admin criterion =
      (criterion.limited (Zone.byTime (memory.zones.filter criterion.looksUp))).map
        (ZoneRow.ofZone none) := by
    rw [Table.select, twins.rows, List.filter_map, tests, ZoneRow.mergeSort_ofZone criterion
      (times.sublist (List.filter_sublist.map Zone.updatedAt)) fun zone member =>
        dated zone (List.mem_filter.mp member).1, criterion.limited_map]
  rw [Table.findZones, guarded, ok_bind, selected]
  refine mapM_toZone fun zone member => dated zone ?_
  have listed := (Zone.byTime_perm _).subset ((criterion.limited_sublist _).subset member)
  exact (List.mem_filter.mp listed).1

/-- Both registries find the same zones when every zone that is misjudged comes after the limit. -/
theorem limited_eq_iff (criterion : ZoneCriterion) {zones : List Zone}
    (times : (zones.map Zone.updatedAt).Nodup) :
    criterion.limited (Zone.byTime (zones.filter criterion.looksUp)) =
        criterion.limited (Zone.byTime (zones.filter criterion.selects)) ↔
      ∀ zone ∈ zones, criterion.Misjudges zone → ∃ limit, criterion.limit = some limit ∧
        limit ≤ zones.countP fun other => decide (other.Older zone) &&
          (criterion.looksUp other && criterion.selects other) := by
  have distinct : (Zone.byTime zones).Nodup :=
    (Zone.byTime_perm zones).nodup_iff.mpr (List.Nodup.of_map _ times)
  rw [Zone.byTime_filter times, Zone.byTime_filter times, criterion.limited_filter_eq_iff distinct]
  constructor
  · intro each zone member misjudged
    obtain ⟨before, after, split⟩ := List.append_of_mem ((Zone.byTime_perm zones).mem_iff.mpr member)
    rw [← Zone.countP_before times split]
    exact each before zone after split ((criterion.misjudges_iff zone).mp misjudged).symm
  · intro each before zone after split differ
    have member : zone ∈ zones := (Zone.byTime_perm zones).subset (by simp [split])
    rw [Zone.countP_before times split]
    exact each zone member ((criterion.misjudges_iff zone).mpr differ.symm)

theorem not_misjudges_of_plain {criterion : ZoneCriterion} {zone : Zone}
    (asked : ∀ name, criterion.name = some name → Name.Plain name)
    (normal : ∃ name, Name.Plain name ∧ zone.name = Zone.normalName name) :
    ¬criterion.Misjudges zone := by
  rintro ⟨-, name, given, differ⟩
  obtain ⟨own, ⟨ownStem, hasOwn⟩, spelled⟩ := normal
  obtain ⟨stem, has⟩ := asked name given
  rw [spelled, has.sameName_iff hasOwn] at differ
  exact differ Iff.rfl

/-- Zones with distinct names and times are put into both registries.  Then a table finds those
that its tests select, the least recently updated first and cut to the limit.  They are the zones
that the process finds exactly when every zone that is misjudged comes after the limit; and this is
so when the names of all zones are plain ones in normal form and the name asked for, if any, is
plain. -/
theorem found_alike_iff {zones : List Zone} (names : (zones.map Zone.name).Nodup)
    (times : (zones.map Zone.updatedAt).Nodup) (dated : ∀ zone ∈ zones, Dated zone)
    {criterion : ZoneCriterion} (bounds : criterion.InMillis) :
    ∃ table found, Table.filled zones = .ok table ∧
      table.findZones .admin criterion = .ok found ∧
      found =
        criterion.limited (Zone.byTime ((Memory.filled zones).zones.filter criterion.looksUp)) ∧
      (found = (Memory.filled zones).findZones criterion ↔
        ∀ zone ∈ (Memory.filled zones).zones, criterion.Misjudges zone →
          ∃ limit, criterion.limit = some limit ∧
            limit ≤ (Memory.filled zones).zones.countP fun other =>
              decide (other.Older zone) && (criterion.looksUp other && criterion.selects other)) ∧
      ((∀ name, criterion.name = some name → Name.Plain name) →
        (∀ zone ∈ zones, ∃ name, Name.Plain name ∧ zone.name = Zone.normalName name) →
        found = (Memory.filled zones).findZones criterion) := by
  obtain ⟨table, made, filled⟩ := exists_filled names
  have distinct := filled.times times
  have alike := limited_eq_iff criterion distinct
  refine ⟨table, _, made, filled.toTwins.findZones bounds distinct fun zone held =>
    dated zone (filled.given zone held), rfl, alike, fun asked normal => ?_⟩
  refine alike.mpr fun zone held misjudged => ?_
  exact absurd misjudged (not_misjudges_of_plain asked (normal zone (filled.given zone held)))

def smallNamed : Zone := ⟨"a", "example.org.", 1, .update, .pending, "default", .ofMillis 10⟩

def capitalNamed : Zone := ⟨"b", "Example.ORG", 2, .create, .pending, "default", .ofMillis 20⟩

def oldestNamed : ZoneCriterion :=
  { name := some "EXAMPLE.org", statuses := [.pending], updatedAfter := some (.ofMillis 5)
    limit := some 1 }

theorem oldestNamed_inMillis : oldestNamed.InMillis where
  before bound given := nomatch given
  after bound given := by
    cases given
    exact Timestamp.onMilli_ofMillis 5

theorem asked_stem :
    Name.HasStem "EXAMPLE.org" ['E', 'X', 'A', 'M', 'P', 'L', 'E', '.', 'o', 'r', 'g'] :=
  ⟨by simp, by decide, .inl rfl⟩

theorem normalName_asked : Zone.normalName "EXAMPLE.org" = "example.org." :=
  String.toList_inj.mp (asked_stem.normalName.trans (by decide +kernel))

theorem sameName_small : Name.sameName "EXAMPLE.org" smallNamed.name = true := by
  have stem : Name.HasStem smallNamed.name
      ['e', 'x', 'a', 'm', 'p', 'l', 'e', '.', 'o', 'r', 'g'] :=
    ⟨by simp, by decide, .inr rfl⟩
  rw [asked_stem.sameName_eq stem]
  decide +kernel

theorem sameName_capital : Name.sameName "EXAMPLE.org" capitalNamed.name = true := by
  have stem : Name.HasStem capitalNamed.name
      ['E', 'x', 'a', 'm', 'p', 'l', 'e', '.', 'O', 'R', 'G'] :=
    ⟨by simp, by decide, .inl rfl⟩
  rw [asked_stem.sameName_eq stem]
  decide +kernel

/-- Two zones of one name up to case: the one that a table does not find is cut off. -/
theorem found_alike_iff_cut :
    ([capitalNamed, smallNamed].map Zone.name).Nodup ∧
      ([capitalNamed, smallNamed].map Zone.updatedAt).Nodup ∧
      (∀ zone ∈ [capitalNamed, smallNamed], Dated zone) ∧ oldestNamed.InMillis ∧
      oldestNamed.Misjudges capitalNamed ∧
      ∃ table, Table.filled [capitalNamed, smallNamed] = .ok table ∧
        table.findZones .admin oldestNamed =
          .ok ((Memory.filled [capitalNamed, smallNamed]).findZones oldestNamed) := by
  have names : ([capitalNamed, smallNamed].map Zone.name).Nodup := by decide +kernel
  have times : ([capitalNamed, smallNamed].map Zone.updatedAt).Nodup := by decide +kernel
  have dated : ∀ zone ∈ [capitalNamed, smallNamed], Dated zone := by decide +kernel
  have held : (Memory.filled [capitalNamed, smallNamed]).zones = [capitalNamed, smallNamed] := by
    decide +kernel
  have misjudged : oldestNamed.Misjudges capitalNamed := by
    refine ⟨by decide +kernel, "EXAMPLE.org", rfl, ?_⟩
    rw [normalName_asked, sameName_capital]
    decide +kernel
  have given : oldestNamed.name = some "EXAMPLE.org" := rfl
  have selected : oldestNamed.selects smallNamed = true := by
    rw [ZoneCriterion.selects_of_name given, sameName_small]
    decide +kernel
  have found : oldestNamed.looksUp smallNamed = true := by
    rw [ZoneCriterion.looksUp_of_name given, normalName_asked]
    decide +kernel
  obtain ⟨table, zones, made, finds, -, alike, -⟩ :=
    found_alike_iff names times dated oldestNamed_inMillis
  refine ⟨names, times, dated, oldestNamed_inMillis, misjudged, table, made, ?_⟩
  rw [finds, alike.mpr]
  rw [held]
  intro zone member misjudges
  rcases List.mem_pair.mp member with rfl | rfl
  · refine ⟨1, rfl, List.countP_pos_iff.mpr ⟨smallNamed, by simp, ?_⟩⟩
    rw [found, selected]
    decide +kernel
  · exact absurd (selected.trans found.symm) ((oldestNamed.misjudges_iff smallNamed).mp misjudges)

/-- A zone that was created with capital letters is found by its name in the process, and not in
the tables. -/
theorem capital_name_missed :
    Dated capitalNamed ∧
      (Memory.filled [capitalNamed]).findZones (.byName "EXAMPLE.org") = [capitalNamed] ∧
      ∃ table, Table.filled [capitalNamed] = .ok table ∧
        table.findZones .admin (.byName "EXAMPLE.org") = .ok [] := by
  have dated : Dated capitalNamed := by decide +kernel
  have held : (Memory.filled [capitalNamed]).zones = [capitalNamed] := by decide +kernel
  have selected : ZoneCriterion.selects (.byName "EXAMPLE.org") capitalNamed = true := by
    rw [ZoneCriterion.selects_of_name rfl, sameName_capital]
    decide +kernel
  have missed : ZoneCriterion.looksUp (.byName "EXAMPLE.org") capitalNamed = false := by
    rw [ZoneCriterion.looksUp_of_name rfl, normalName_asked]
    decide +kernel
  obtain ⟨table, made, filled⟩ := @exists_filled [capitalNamed] (List.nodup_singleton _)
  refine ⟨dated, ?_, table, made, ?_⟩
  · rw [Memory.findZones, held, List.filter_cons_of_pos selected]
    decide +kernel
  · have unbounded : (ZoneCriterion.byName "EXAMPLE.org").InMillis := {
      before := fun bound given => nomatch given
      after := fun bound given => nomatch given }
    rw [filled.toTwins.findZones unbounded (filled.times (List.nodup_singleton _)) fun other member =>
      List.mem_singleton.mp (filled.given other member) ▸ dated, held,
      List.filter_cons_of_neg (by simp [missed])]
    decide +kernel

end Registry

end ZonePropagation
