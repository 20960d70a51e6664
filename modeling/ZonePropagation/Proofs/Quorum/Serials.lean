import Mathlib.Data.List.GetD
import ZonePropagation.Proofs.Quorum.Counting
import ZonePropagation.Proofs.Serial.Window
/-!
The serial that a verdict of success carries.

Serials that confirm lie within half the circle ahead of the expected one, where being ahead is a
linear order.  The one that is carried has at least the required number of serials at or ahead of
it, is itself at or ahead of the expected one, and is the farthest ahead of which this is true.
-/

namespace ZonePropagation

namespace Serial

theorem index_lt_countP_distance {base : UInt32} {serials : List UInt32} {index : Nat}
    (inside : index < (newestFirst base serials).length) :
    index < serials.countP fun serial =>
      distance base ((newestFirst base serials)[index]) ≤ distance base serial := by
  have first : ∀ serial ∈ (newestFirst base serials).take (index + 1),
      decide (distance base ((newestFirst base serials)[index]) ≤ distance base serial) = true := by
    intro serial member
    obtain ⟨position, early, rfl⟩ := List.mem_iff_getElem.mp member
    rw [List.getElem_take, decide_eq_true_eq]
    have bound : position < index + 1 := by
      rw [List.length_take] at early
      omega
    rcases Nat.lt_or_eq_of_le (Nat.lt_succ_iff.mp bound) with before | same
    · exact List.pairwise_iff_getElem.mp (newestFirst_pairwise base serials) position index
        (by omega) inside before
    · subst same
      exact UInt32.le_refl _
  rw [← (newestFirst_perm base serials).countP_eq]
  calc index < ((newestFirst base serials).take (index + 1)).length := by
        rw [List.length_take]
        omega
    _ = ((newestFirst base serials).take (index + 1)).countP fun serial =>
          distance base ((newestFirst base serials)[index]) ≤ distance base serial := by
        rw [eq_comm, List.countP_eq_length]
        exact first
    _ ≤ (newestFirst base serials).countP fun serial =>
          distance base ((newestFirst base serials)[index]) ≤ distance base serial :=
        (List.take_sublist _ _).countP_le

theorem index_lt_countP_newestFirst {base : UInt32} {serials : List UInt32} {index : Nat}
    (within : ∀ serial ∈ serials, isAtLeast serial base = true)
    (inside : index < (newestFirst base serials).length) :
    index < serials.countP fun serial =>
      isAtLeast serial ((newestFirst base serials)[index]) := by
  apply Nat.lt_of_lt_of_le (index_lt_countP_distance inside)
  apply List.countP_mono_left
  intro serial member farther
  exact isAtLeast_of_distance_le (within serial member) (of_decide_eq_true farther)

theorem countP_farther_le {base bound : UInt32} {serials : List UInt32} {index : Nat}
    (inside : index < (newestFirst base serials).length)
    (reached : distance base ((newestFirst base serials)[index]) ≤ bound) :
    (serials.countP fun serial => bound < distance base serial) ≤ index := by
  have last : ((newestFirst base serials).drop index).countP
      (fun serial => bound < distance base serial) = 0 := by
    rw [List.countP_eq_zero]
    intro serial member
    obtain ⟨position, late, rfl⟩ := List.mem_iff_getElem.mp member
    rw [List.getElem_drop, decide_eq_true_eq, UInt32.not_lt]
    rw [List.length_drop] at late
    apply UInt32.le_trans _ reached
    rcases Nat.eq_zero_or_pos position with rfl | after
    · exact UInt32.le_refl _
    · exact List.pairwise_iff_getElem.mp (newestFirst_pairwise base serials) index
        (index + position) inside (by omega) (by omega)
  rw [← (newestFirst_perm base serials).countP_eq,
    ← List.take_append_drop index (newestFirst base serials), List.countP_append, last,
    Nat.add_zero]
  exact List.countP_le_length.trans (List.length_take_le _ _)

theorem distance_newestFirst_mono {base : UInt32} {fewer more : List UInt32} {index : Nat}
    (contained : fewer.Subperm more) (inside : index < (newestFirst base fewer).length)
    (insideMore : index < (newestFirst base more).length) :
    distance base ((newestFirst base fewer)[index]) ≤
      distance base ((newestFirst base more)[index]) := by
  rw [← UInt32.not_lt]
  intro nearer
  have reached := index_lt_countP_distance inside
  have carried := contained.countP_le fun serial =>
    distance base ((newestFirst base fewer)[index]) ≤ distance base serial
  have farther : more.countP (fun serial =>
      distance base ((newestFirst base fewer)[index]) ≤ distance base serial) ≤
      more.countP fun serial =>
        distance base ((newestFirst base more)[index]) < distance base serial := by
    apply List.countP_mono_left
    intro serial _member far
    rw [decide_eq_true_eq] at far ⊢
    exact UInt32.lt_of_lt_of_le nearer far
  have bounded := countP_farther_le insideMore (UInt32.le_refl _)
  omega

end Serial

namespace Quorum

def reaches (expected serial : UInt32) (row : StatusRecord) : Bool :=
  row.status == .success && Serial.isAtLeast (row.serial.getD expected) serial

theorem mem_confirmed {expected serial : UInt32} {rows : List StatusRecord}
    (confirming : serial ∈ confirmed expected rows) : Serial.isAtLeast serial expected = true := by
  unfold confirmed at confirming
  exact (List.mem_filter.mp confirming).2

theorem mem_confirmed_iff {expected serial : UInt32} {rows : List StatusRecord} :
    serial ∈ confirmed expected rows ↔
      ∃ row ∈ rows, confirms expected row = true ∧ row.serial.getD expected = serial := by
  simp only [confirmed, confirms, List.mem_filter, List.mem_map, Bool.and_eq_true]
  constructor
  · rintro ⟨⟨row, ⟨member, success⟩, rfl⟩, reached⟩
    exact ⟨row, member, ⟨success, reached⟩, rfl⟩
  · rintro ⟨row, member, ⟨success, reached⟩, rfl⟩
    exact ⟨⟨row, ⟨member, success⟩, rfl⟩, reached⟩

def holders (expected serial : UInt32) (rows : List StatusRecord) : Nat :=
  rows.countP fun row =>
    confirms expected row && Serial.isAtLeast (row.serial.getD expected) serial

theorem countP_confirmed (expected serial : UInt32) (rows : List StatusRecord) :
    (confirmed expected rows).countP (fun other => Serial.isAtLeast other serial) =
      holders expected serial rows := by
  unfold confirmed holders
  rw [List.countP_filter, List.countP_map, List.countP_filter]
  apply List.countP_congr
  intro row _member
  simp only [Function.comp_apply, confirms, Bool.and_eq_true]
  tauto

theorem countP_confirmed_le (expected serial : UInt32) (rows : List StatusRecord) :
    ((confirmed expected rows).countP fun other => Serial.isAtLeast other serial) ≤
      rows.countP (reaches expected serial) := by
  rw [countP_confirmed]
  apply List.countP_mono_left
  intro row _member held
  simp only [confirms, Bool.and_eq_true] at held
  unfold reaches
  rw [held.1.1, held.2]
  rfl

theorem evaluate_eq_of_perm {rows others : List StatusRecord} {total threshold : Nat}
    {expected : UInt32} (confirming : (confirmed expected rows).Perm (confirmed expected others))
    (known : settled rows = settled others) :
    evaluate rows total threshold expected = evaluate others total threshold expected := by
  unfold evaluate
  dsimp only
  rw [Serial.newestFirst_eq_of_perm confirming, confirming.length_eq, known]

/-- The serial of a success is the last one of those that are needed, the newest first.  Where none
is needed it is the expected one. -/
theorem evaluate_success_carries {rows : List StatusRecord} {total threshold : Nat}
    {expected serial : UInt32} (reached : evaluate rows total threshold expected = .success serial) :
    (requiredSuccesses total threshold = 0 ∧ serial = expected) ∨
      (0 < requiredSuccesses total threshold ∧
        ∃ inside : requiredSuccesses total threshold - 1 <
            (Serial.newestFirst expected (confirmed expected rows)).length,
          serial = (Serial.newestFirst expected (confirmed expected rows))[
            requiredSuccesses total threshold - 1]) := by
  unfold evaluate at reached
  dsimp only at reached
  split at reached
  · next nothing =>
      cases reached
      exact .inl ⟨nothing, rfl⟩
  · next something =>
      split at reached
      · next enough =>
          have inside : requiredSuccesses total threshold - 1 <
              (Serial.newestFirst expected (confirmed expected rows)).length := by
            rw [(Serial.newestFirst_perm expected _).length_eq]
            omega
          refine .inr ⟨Nat.pos_of_ne_zero something, inside, ?_⟩
          rw [List.getD_eq_getElem _ _ inside] at reached
          cases reached
          rfl
      · split at reached <;> cases reached

theorem evaluate_success_serial {rows : List StatusRecord} {total threshold : Nat}
    {expected serial : UInt32} (reached : evaluate rows total threshold expected = .success serial) :
    Serial.isAtLeast serial expected = true ∧
      requiredSuccesses total threshold ≤ rows.countP (reaches expected serial) := by
  rcases evaluate_success_carries reached with ⟨nothing, rfl⟩ | ⟨something, inside, carried⟩
  · refine ⟨by simp [Serial.isAtLeast], ?_⟩
    omega
  · rw [carried]
    constructor
    · exact mem_confirmed ((Serial.newestFirst_perm expected _).mem_iff.mp
        (List.getElem_mem inside))
    · have counted := Serial.index_lt_countP_newestFirst (fun serial => mem_confirmed) inside
      have bounded := countP_confirmed_le expected ((Serial.newestFirst expected
        (confirmed expected rows))[requiredSuccesses total threshold - 1]) rows
      omega

theorem evaluate_success_mono {rows more : List StatusRecord} {total threshold : Nat}
    {expected early late : UInt32}
    (contained : (confirmed expected rows).Subperm (confirmed expected more))
    (first : evaluate rows total threshold expected = .success early)
    (second : evaluate more total threshold expected = .success late) :
    Serial.distance expected early ≤ Serial.distance expected late := by
  rcases evaluate_success_carries first with ⟨nothing, rfl⟩ | ⟨something, inside, carried⟩
  · simp [Serial.distance]
  · rcases evaluate_success_carries second with ⟨nothing, -⟩ | ⟨-, insideMore, carriedMore⟩
    · omega
    · rw [carried, carriedMore]
      exact Serial.distance_newestFirst_mono contained inside insideMore

theorem evaluate_eq_of_rows_perm {rows others : List StatusRecord} (same : rows.Perm others)
    (total threshold : Nat) (expected : UInt32) :
    evaluate rows total threshold expected = evaluate others total threshold expected := by
  apply evaluate_eq_of_perm
  · exact ((same.filter _).map _).filter _
  · exact same.countP_eq _

theorem holders_lt_of_farther {rows : List StatusRecord} {total threshold : Nat}
    {expected serial newer : UInt32} (needed : 0 < requiredSuccesses total threshold)
    (reached : evaluate rows total threshold expected = .success serial)
    (within : Serial.isAtLeast newer expected = true)
    (farther : Serial.distance expected serial < Serial.distance expected newer) :
    holders expected newer rows < requiredSuccesses total threshold := by
  rcases evaluate_success_carries reached with ⟨nothing, -⟩ | ⟨-, inside, carried⟩
  · omega
  rw [← countP_confirmed]
  have few := Serial.countP_farther_le inside (UInt32.le_refl _)
  rw [← carried] at few
  have ahead : (confirmed expected rows).countP (fun other => Serial.isAtLeast other newer) ≤
      (confirmed expected rows).countP fun other =>
        Serial.distance expected serial < Serial.distance expected other := by
    apply List.countP_mono_left
    intro other member held
    rw [decide_eq_true_eq]
    exact UInt32.lt_of_lt_of_le farther
      (Serial.distance_le_of_isAtLeast within (mem_confirmed member) held)
  omega

/-- Where confirmations are needed, the serial of a success is one that a confirming row holds,
as many rows as are needed confirm at it or at a newer one, and it is the farthest ahead of the
expected serial with that property.  It is the expected serial or newer, and the order of the rows
plays no part in it. -/
theorem evaluate_success_newest (rows : List StatusRecord) (total threshold : Nat)
    (expected serial : UInt32) (needed : 1 ≤ requiredSuccesses total threshold)
    (reached : evaluate rows total threshold expected = .success serial) :
    (∃ row ∈ rows, confirms expected row = true ∧ row.serial.getD expected = serial) ∧
      requiredSuccesses total threshold ≤ holders expected serial rows ∧
      (∀ row ∈ rows, confirms expected row = true →
        Serial.distance expected serial < Serial.distance expected (row.serial.getD expected) →
        holders expected (row.serial.getD expected) rows < requiredSuccesses total threshold) ∧
      Serial.isAtLeast serial expected = true ∧
      ∀ others, others.Perm rows → evaluate others total threshold expected = .success serial := by
  have held : serial ∈ confirmed expected rows ∧
      requiredSuccesses total threshold ≤ holders expected serial rows := by
    rcases evaluate_success_carries reached with ⟨nothing, -⟩ | ⟨-, inside, carried⟩
    · omega
    have enough := Serial.index_lt_countP_newestFirst (fun serial => mem_confirmed) inside
    rw [← carried, countP_confirmed] at enough
    refine ⟨?_, by omega⟩
    rw [carried]
    exact (Serial.newestFirst_perm expected _).mem_iff.mp (List.getElem_mem inside)
  refine ⟨mem_confirmed_iff.mp held.1, held.2, ?_, mem_confirmed held.1, ?_⟩
  · intro row member confirming farther
    exact holders_lt_of_farther needed reached
      (mem_confirmed (mem_confirmed_iff.mpr ⟨row, member, confirming, rfl⟩)) farther
  · intro others same
    rw [evaluate_eq_of_rows_perm same, reached]

private def heldAt (host : String) (serial : Option UInt32) : StatusRecord :=
  { zoneId := "z", action := .update, nameserver := ⟨host, 53⟩, status := .success, serial
    updatedAt := default }

/-- Across the end of the circle three of five servers hold the serial or a newer one; one holds
the expected serial by holding none, and one is behind. -/
theorem evaluate_success_newest_wrapped :
    let rows := [heldAt "a" (some 4294967295), heldAt "b" (some 3), heldAt "c" (some 2147483640),
      heldAt "d" none, heldAt "e" (some 4294967280)]
    1 ≤ requiredSuccesses 5 60 ∧ evaluate rows 5 60 4294967290 = .success 4294967295 ∧
      3 ≤ holders 4294967290 4294967295 rows ∧ holders 4294967290 3 rows < 3 ∧
      Serial.isAtLeast 4294967295 4294967290 = true ∧
      evaluate rows.reverse 5 60 4294967290 = .success 4294967295 := by
  intro rows
  have needed : 1 ≤ requiredSuccesses 5 60 := by decide
  have reached : evaluate rows 5 60 4294967290 = .success 4294967295 := by cbv
  obtain ⟨-, enough, fewer, atLeast, same⟩ :=
    evaluate_success_newest rows 5 60 4294967290 4294967295 needed reached
  exact ⟨needed, reached, enough, fewer (heldAt "b" (some 3)) (by simp [rows]) (by decide)
    (by decide), atLeast, same rows.reverse rows.reverse_perm⟩

end Quorum

end ZonePropagation
