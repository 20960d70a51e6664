import Mathlib.Data.List.Permutation
import Mathlib.Order.Defs.Unbundled
import ZonePropagation.Serial
/-!
The order of serials within the window of a base.

Being newer is no order on the whole circle: of two serials that lie opposite each other neither is
newer, and of three serials around the circle each can be newer than the one before.  On the half of
the circle ahead of a base it is a linear order, that of the distances from the base, so that
sorting by distance puts the newest first in one way only.
-/

namespace ZonePropagation.Serial

/-! ### Two serials on the circle -/

def AreOpposite (left right : UInt32) : Prop :=
  left.toNat = right.toNat + 2147483648 ∨ right.toNat = left.toNat + 2147483648

instance (left right : UInt32) : Decidable (AreOpposite left right) :=
  inferInstanceAs (Decidable (_ ∨ _))

theorem distance_add_distance (left right : UInt32) :
    (left = right ∧ (distance right left).toNat = 0 ∧ (distance left right).toNat = 0) ∨
      (left ≠ right ∧ 0 < (distance right left).toNat ∧ 0 < (distance left right).toNat ∧
        (distance right left).toNat + (distance left right).toNat = 4294967296) := by
  rw [← UInt32.toNat_inj.ne, ← UInt32.toNat_inj]
  simp only [distance, UInt32.toNat_sub]
  have leftBound := left.toNat_lt
  have rightBound := right.toNat_lt
  omega

theorem isNewer_eq (left right : UInt32) : isNewer left right =
    decide (0 < (distance right left).toNat ∧ (distance right left).toNat < 2147483648) := by
  rw [Bool.eq_iff_iff, isNewer, Bool.and_eq_true, bne_iff_ne, decide_eq_true_eq, decide_eq_true_eq,
    UInt32.lt_iff_toNat_lt]
  rcases distance_add_distance left right with ⟨same, level, -⟩ | ⟨differ, ahead, -⟩
  · exact iff_of_false (fun newer => newer.1 same) (by omega)
  · exact and_congr_left' (iff_of_true differ ahead)

theorem areOpposite_iff (left right : UInt32) :
    AreOpposite left right ↔ (distance right left).toNat = 2147483648 := by
  simp only [AreOpposite, distance, UInt32.toNat_sub]
  have leftBound := left.toNat_lt
  have rightBound := right.toNat_lt
  omega

/-- Of two serials one is newer, or they are equal or lie opposite each other, and only one of
these holds. -/
theorem count_relations (left right : UInt32) :
    [decide (left = right), isNewer left right, isNewer right left,
      decide (AreOpposite left right)].count true = 1 := by
  rw [isNewer_eq left right, isNewer_eq right left]
  simp only [areOpposite_iff, List.count_cons, List.count_nil, beq_true, decide_eq_true_eq]
  rcases distance_add_distance left right with ⟨same, ahead, behind⟩ | ⟨differ, _, _, around⟩
  · rw [if_pos same, ahead, behind]
    decide
  · -- One way around is the shorter one, or both are half of the circle.
    grind

/-! ### Within the window of a base -/

theorem isAtLeast_iff (left right : UInt32) :
    isAtLeast left right = true ↔ (distance right left).toNat < 2147483648 := by
  rw [isAtLeast, Bool.or_eq_true, beq_iff_eq, isNewer_eq, decide_eq_true_eq]
  rcases distance_add_distance left right with ⟨same, level, -⟩ | ⟨differ, ahead, -⟩
  · exact iff_of_true (.inl same) (by omega)
  · simp [differ, ahead]

theorem isAtLeast_of_distance_le {base near far : UInt32} (within : isAtLeast far base = true)
    (farther : distance base near ≤ distance base far) : isAtLeast far near = true := by
  rw [isAtLeast_iff] at within ⊢
  have order := UInt32.le_iff_toNat_le.mp farther
  have between : distance near far = distance base far - distance base near := by
    unfold distance
    grind
  rw [between, UInt32.toNat_sub_of_le _ _ farther]
  omega

theorem distance_le_of_isAtLeast {base near far : UInt32}
    (nearWithin : isAtLeast near base = true) (farWithin : isAtLeast far base = true)
    (newer : isAtLeast far near = true) : distance base near ≤ distance base far := by
  rw [isAtLeast_iff] at nearWithin farWithin newer
  rw [UInt32.le_iff_toNat_le]
  simp only [distance, UInt32.toNat_sub] at nearWithin farWithin newer ⊢
  have baseBound := base.toNat_lt
  have nearBound := near.toNat_lt
  have farBound := far.toNat_lt
  omega

theorem isAtLeast_iff_distance_le {base near far : UInt32}
    (nearWithin : isAtLeast near base = true) (farWithin : isAtLeast far base = true) :
    isAtLeast far near = true ↔ distance base near ≤ distance base far :=
  ⟨distance_le_of_isAtLeast nearWithin farWithin, isAtLeast_of_distance_le farWithin⟩

theorem distance_injective (base : UInt32) : Function.Injective (distance base) :=
  fun _left _right same => (UInt32.sub_left_inj base).mp same

abbrev Window (base : UInt32) : Type :=
  { serial : UInt32 // isAtLeast serial base = true }

theorem isLinearOrder_window (base : UInt32) :
    IsLinearOrder (Window base) fun older newer => isAtLeast newer.1 older.1 = true := by
  have order (older newer : Window base) :
      isAtLeast newer.1 older.1 = true ↔ distance base older.1 ≤ distance base newer.1 :=
    isAtLeast_iff_distance_le older.2 newer.2
  simp only [order]
  exact {
    refl := fun _ => UInt32.le_refl _
    trans := fun _ _ _ => UInt32.le_trans
    antisymm := fun _ _ before after =>
      Subtype.ext (distance_injective base (UInt32.le_antisymm before after))
    total := fun _ _ => UInt32.le_total _ _ }

example : isNewer 1431655765 0 = true ∧ isNewer 2863311530 1431655765 = true ∧
    isNewer 0 2863311530 = true := by decide

/-! ### Sorting -/

theorem newestFirst_perm (base : UInt32) (serials : List UInt32) :
    (newestFirst base serials).Perm serials :=
  List.mergeSort_perm serials _

theorem newestFirst_pairwise (base : UInt32) (serials : List UInt32) :
    (newestFirst base serials).Pairwise fun left right =>
      distance base right ≤ distance base left := by
  have transitive : ∀ left middle right : UInt32,
      decide (distance base middle ≤ distance base left) = true →
        decide (distance base right ≤ distance base middle) = true →
          decide (distance base right ≤ distance base left) = true := by
    intro left middle right first second
    simp only [decide_eq_true_eq] at first second ⊢
    exact UInt32.le_trans second first
  have total : ∀ left right : UInt32,
      (decide (distance base right ≤ distance base left) ||
        decide (distance base left ≤ distance base right)) = true := by
    intro left right
    simp only [Bool.or_eq_true, decide_eq_true_eq]
    exact UInt32.le_total _ _
  apply (List.pairwise_mergeSort transitive total serials).imp
  intro left right ordered
  exact of_decide_eq_true ordered

theorem newestFirst_eq_of_perm {base : UInt32} {left right : List UInt32} (same : left.Perm right) :
    newestFirst base left = newestFirst base right := by
  apply List.Perm.eq_of_pairwise ?_ (newestFirst_pairwise base left)
    (newestFirst_pairwise base right)
  · exact (newestFirst_perm base left).trans (same.trans (newestFirst_perm base right).symm)
  · intro one other _ _ first second
    exact distance_injective base (UInt32.le_antisymm second first)

theorem newestFirst_descends {base : UInt32} {serials : List UInt32}
    (within : ∀ serial ∈ serials, isAtLeast serial base = true) :
    (newestFirst base serials).Pairwise fun earlier later => isAtLeast earlier later = true := by
  refine (newestFirst_pairwise base serials).imp_of_mem ?_
  intro earlier later member _later farther
  exact isAtLeast_of_distance_le (within earlier ((newestFirst_perm base serials).subset member))
    farther

/-- Of two serials one is newer, or they are equal or lie opposite each other.  On the window of a
base being newer or equal is the linear order of the distances from the base, so that sorting
serials of the window puts every earlier one as new as every later one, in one way whatever their
order was. -/
theorem window_linearly_ordered :
    (∀ left right : UInt32,
      [decide (left = right), isNewer left right, isNewer right left,
        decide (AreOpposite left right)].count true = 1) ∧
    ∀ base : UInt32,
      IsLinearOrder (Window base) (fun older newer => isAtLeast newer.1 older.1 = true) ∧
      (∀ one other : UInt32, isAtLeast one base = true → isAtLeast other base = true →
        (isAtLeast one other = true ↔ distance base other ≤ distance base one)) ∧
      ∀ serials : List UInt32, (∀ serial ∈ serials, isAtLeast serial base = true) →
        (newestFirst base serials).Perm serials ∧
        (newestFirst base serials).Pairwise
          (fun earlier later => isAtLeast earlier later = true) ∧
        ∀ others : List UInt32, others.Perm serials →
          newestFirst base others = newestFirst base serials := by
  refine ⟨count_relations, fun base => ⟨isLinearOrder_window base, ?_, ?_⟩⟩
  · intro one other oneWithin otherWithin
    exact isAtLeast_iff_distance_le otherWithin oneWithin
  · intro serials within
    exact ⟨newestFirst_perm base serials, newestFirst_descends within,
      fun others same => newestFirst_eq_of_perm same⟩

/-- Around the end of the numbers: two orders of the same serials, the oldest one their base. -/
theorem window_linearly_ordered_wrapped :
    (∀ serial ∈ [3, 4294967290, 2147483641], isAtLeast serial 4294967290 = true) ∧
      [2147483641, 3, (4294967290 : UInt32)].Perm [3, 4294967290, 2147483641] ∧
      newestFirst 4294967290 [2147483641, 3, 4294967290] =
        newestFirst 4294967290 [3, 4294967290, 2147483641] ∧
      newestFirst 4294967290 [3, 4294967290, 2147483641] = [2147483641, 3, 4294967290] ∧
      isAtLeast 2147483641 3 = true := by
  have within : ∀ serial ∈ [3, 4294967290, 2147483641], isAtLeast serial 4294967290 = true :=
    List.all_eq_true.mp (by decide)
  have turned : [2147483641, 3, (4294967290 : UInt32)].Perm [3, 4294967290, 2147483641] := by decide
  obtain ⟨-, order, sorted⟩ := window_linearly_ordered.2 4294967290
  have same := (sorted _ within).2.2 _ turned
  refine ⟨within, turned, same, ?_, (order _ _ (by decide) (by decide)).mpr (by decide)⟩
  rw [← same]
  exact List.mergeSort_of_pairwise (by decide)

end ZonePropagation.Serial
