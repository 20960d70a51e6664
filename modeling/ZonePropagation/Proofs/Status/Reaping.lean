import Mathlib
import ZonePropagation.Proofs.Time.Order
import ZonePropagation.Settings.Validation
import ZonePropagation.Status.Store
/-!
Rows that have become stale.

A row is stale when more than a given age has passed since it was written.  The process removes
just the stale rows, whatever the age: a cutoff that the calendar does not have is before all rows.
A table counts the cutoff in 64 bits.  Where the cutoff does not fit, no row is stale; but the bits
that are left of it are a later time, and the rows from before that time are removed.
-/

namespace ZonePropagation

namespace Status

/-- More than the age has passed since the time of writing; the times are in milliseconds. -/
def IsStale (now : Int) (ageSeconds : Nat) (written : Int) : Prop :=
  written < now - 1000 * ageSeconds

instance (now : Int) (ageSeconds : Nat) (written : Int) :
    Decidable (IsStale now ageSeconds written) :=
  inferInstanceAs (Decidable (written < now - 1000 * ageSeconds))

structure StaleGone {α : Type} (written : α → Int) (now : Int) (ageSeconds : Nat)
    (rows kept : List α) (count : Nat) : Prop where
  kept : kept = rows.filter fun row => ¬IsStale now ageSeconds (written row)
  counted : count = rows.countP fun row => IsStale now ageSeconds (written row)

theorem length_sub_filter {α : Type} (removes : α → Bool) (rows : List α) :
    rows.length - (rows.filter fun row => !removes row).length = rows.countP removes := by
  have split := List.length_eq_countP_add_countP removes (l := rows)
  simp only [Bool.not_eq_true, ← List.countP_eq_length_filter, Bool.decide_eq_false] at split ⊢
  omega

section Tests

variable {α : Type} {written : α → Int} {now : Int} {ageSeconds : Nat} {rows : List α}

theorem kept_eq_iff (removes : α → Bool) :
    (rows.filter fun row => !removes row) =
        (rows.filter fun row => ¬IsStale now ageSeconds (written row)) ↔
      ∀ row ∈ rows, removes row = true ↔ IsStale now ageSeconds (written row) := by
  constructor
  · intro same row member
    have kept : row ∈ rows.filter (fun row => !removes row) ↔
        row ∈ rows.filter fun row => ¬IsStale now ageSeconds (written row) := by rw [same]
    rw [List.mem_filter, List.mem_filter, Bool.not_eq_true', Bool.eq_false_iff,
      decide_eq_true_iff, and_congr_right_iff] at kept
    exact not_iff_not.mp (kept member)
  · intro selects
    refine List.filter_congr fun row member => ?_
    rw [Bool.eq_iff_iff, Bool.not_eq_true', Bool.eq_false_iff, decide_eq_true_iff, ne_eq,
      selects row member]

theorem staleGone_iff (removes : α → Bool) :
    StaleGone written now ageSeconds rows (rows.filter fun row => !removes row)
        (rows.countP removes) ↔
      ∀ row ∈ rows, removes row = true ↔ IsStale now ageSeconds (written row) := by
  constructor
  · intro gone
    exact (kept_eq_iff removes).mp gone.kept
  · intro selects
    refine ⟨(kept_eq_iff removes).mpr selects, List.countP_congr fun row member => ?_⟩
    rw [selects row member, decide_eq_true_iff]

end Tests

/-! ### Rows of a table -/

namespace Table

def Reapable (table : Table) (now : Int) (ageSeconds : Nat) : Prop :=
  1000 * ageSeconds ≤ now + 2 ^ 63 ∨
    ∀ row ∈ table.rows, (now - 1000 * ageSeconds).bmod (2 ^ 64) ≤ row.updatedAt

instance (table : Table) (now : Int) (ageSeconds : Nat) :
    Decidable (table.Reapable now ageSeconds) :=
  inferInstanceAs (Decidable (_ ∨ _))

theorem cutoff_eq (now : Int) (ageSeconds : Nat) :
    cutoff now ageSeconds = (now - 1000 * ageSeconds).bmod (2 ^ 64) := by
  unfold cutoff
  rw [show Nat.pow 2 64 = 2 ^ 64 from rfl, Int.sub_bmod_bmod, mul_comm]

theorem cutoff_of_fits {now : Int} {ageSeconds : Nat} (before : now < 2 ^ 63)
    (fits : 1000 * ageSeconds ≤ now + 2 ^ 63) :
    cutoff now ageSeconds = now - 1000 * ageSeconds := by
  rw [cutoff_eq]
  exact Int.bmod_eq_of_le (by norm_num; omega) (by norm_num; omega)

theorem reapStale_eq {table : Table} (opened : table.closed = false) (now : Int)
    (ageSeconds : Nat) :
    table.reapStale now ageSeconds =
      .ok ({ table with rows := table.rows.filter fun row =>
          !(row.updatedAt < cutoff now ageSeconds) },
        table.rows.countP fun row => decide (row.updatedAt < cutoff now ageSeconds)) := by
  unfold reapStale guard
  rw [opened, ← length_sub_filter]
  rfl

theorem before_cutoff_iff_reapable {table : Table} {now : Int} (ageSeconds : Nat)
    (before : now < 2 ^ 63) (wide : ∀ row ∈ table.rows, -2 ^ 63 ≤ row.updatedAt) :
    (∀ row ∈ table.rows, decide (row.updatedAt < cutoff now ageSeconds) = true ↔
        IsStale now ageSeconds row.updatedAt) ↔
      table.Reapable now ageSeconds := by
  unfold Reapable
  by_cases fits : 1000 * (ageSeconds : Int) ≤ now + 2 ^ 63
  · refine iff_of_true (fun row _member => ?_) (.inl fits)
    rw [cutoff_of_fits before fits, decide_eq_true_iff]
    rfl
  · -- The cutoff is before all times that a row can have, so that no row is stale.
    have fresh : ∀ row ∈ table.rows, ¬IsStale now ageSeconds row.updatedAt := by
      intro row member
      have written := wide row member
      unfold IsStale
      omega
    rw [or_iff_right fits, cutoff_eq]
    refine forall₂_congr fun row member => ?_
    rw [iff_false_right (fresh row member), decide_eq_true_iff, not_lt]

end Table

/-! ### Rows of a process -/

namespace Memory

variable {memory : Memory}

theorem remove_none {selects : Entry → Bool}
    (spares : ∀ entry ∈ memory.entries, selects entry = false) :
    memory.remove selects = (memory, 0) := by
  have all : memory.entries.filter (fun entry => !selects entry) = memory.entries := by
    rw [List.filter_eq_self]
    intro entry member
    rw [spares entry member]
    rfl
  unfold remove
  rw [all]
  exact Prod.ext rfl (Nat.sub_self _)

theorem cutoff?_ofMillis (now : Int) (ageSeconds : Nat) :
    cutoff? (.ofMillis now) ageSeconds =
      if ageSeconds ≤ maxAgeSeconds ∧ Timestamp.inRange (now / 1000 - ageSeconds) = true
      then some (.ofMillis (now - 1000 * ageSeconds)) else none := by
  have second : (Timestamp.ofMillis (now - 1000 * ageSeconds)).second =
      now / 1000 - ageSeconds := by
    simp only [Timestamp.ofMillis]
    omega
  unfold cutoff?
  rw [Timestamp.earlier_ofMillis]
  simp only [second, Bool.and_eq_true, decide_eq_true_iff]

theorem not_isStale_of_cutoff?_eq_none {now written : Timestamp} {ageSeconds : Nat}
    (wholeNow : now.IsWhole) (whole : written.IsWhole) (none : cutoff? now ageSeconds = none) :
    ¬IsStale now.toMillis ageSeconds written.toMillis := by
  have rangeNow := wholeNow.range
  have range := whole.range
  rw [wholeNow.1, cutoff?_ofMillis, ite_eq_right_iff] at none
  have outside : ¬(ageSeconds ≤ maxAgeSeconds ∧
      Timestamp.inRange (now.toMillis / 1000 - ageSeconds) = true) := by
    intro inside
    cases none inside
  rw [Timestamp.inRange_iff] at outside
  have most : maxAgeSeconds = 9223372036854775 := by decide +kernel
  unfold IsStale
  omega

theorem reapStale_live {clock : Clock} (wholeNow : clock.now.IsWhole) (ageSeconds : Nat)
    (live : ∀ entry ∈ memory.entries, entry.isExpired clock.elapsed = false)
    (whole : ∀ entry ∈ memory.entries, entry.record.updatedAt.IsWhole) :
    StaleGone (fun entry => entry.record.updatedAt.toMillis) clock.now.toMillis ageSeconds
      memory.entries (memory.reapStale clock ageSeconds).1.entries
      (memory.reapStale clock ageSeconds).2 := by
  unfold reapStale evictExpired
  rw [remove_none live]
  dsimp only
  cases given : cutoff? clock.now ageSeconds with
  | none =>
      have fresh : ∀ entry ∈ memory.entries, false = true ↔
          IsStale clock.now.toMillis ageSeconds entry.record.updatedAt.toMillis :=
        fun entry member => iff_of_false Bool.false_ne_true
          (not_isStale_of_cutoff?_eq_none wholeNow (whole entry member) given)
      have gone := (staleGone_iff fun _entry : Entry => false).mpr fresh
      simpa using gone
  | some cutoff =>
      have cutoffIs : cutoff = .ofMillis (clock.now.toMillis - 1000 * ageSeconds) := by
        rw [wholeNow.1, cutoff?_ofMillis] at given
        split at given
        · exact (Option.some.inj given).symm
        · cases given
      have selects : ∀ entry ∈ memory.entries, entry.record.updatedAt.isBefore cutoff = true ↔
          IsStale clock.now.toMillis ageSeconds entry.record.updatedAt.toMillis := by
        intro entry member
        rw [(whole entry member).1, cutoffIs, Timestamp.isBefore_ofMillis_iff,
          Timestamp.toMillis_ofMillis]
        rfl
      have gone := (staleGone_iff fun entry : Entry =>
        entry.record.updatedAt.isBefore cutoff).mpr selects
      rw [← length_sub_filter] at gone
      simpa [remove] using gone

end Memory

/-! ### Both stores -/

def Memory.lines (memory : Memory) : List TableRow :=
  memory.entries.map fun entry => TableRow.ofRecord entry.record

theorem StaleGone.lines_kept {memory reaped : Memory} {now : Int} {ageSeconds count : Nat}
    (gone : StaleGone (fun entry => entry.record.updatedAt.toMillis) now ageSeconds memory.entries
      reaped.entries count) :
    reaped.lines = memory.lines.filter fun row => ¬IsStale now ageSeconds row.updatedAt := by
  unfold Memory.lines
  rw [gone.kept, List.filter_map]
  rfl

/-- Reaping a table removes the rows from before what 64 bits keep of the cutoff.  These are just
the stale rows exactly when the table is reapable.  The process always removes just the stale rows;
so of the same rows, both keep the same exactly when the table is reapable. -/
theorem stale_gone_iff_reapable {clock : Clock} (wholeNow : clock.now.IsWhole) (ageSeconds : Nat)
    {table : Table} (opened : table.closed = false)
    (wide : ∀ row ∈ table.rows, -2 ^ 63 ≤ row.updatedAt)
    {memory : Memory} (live : ∀ entry ∈ memory.entries, entry.isExpired clock.elapsed = false)
    (whole : ∀ entry ∈ memory.entries, entry.record.updatedAt.IsWhole) :
    (∃ kept count, table.reapStale clock.now.toMillis ageSeconds = .ok (kept, count) ∧
      kept = { table with rows := table.rows.filter fun row =>
        (clock.now.toMillis - 1000 * ageSeconds).bmod (2 ^ 64) ≤ row.updatedAt } ∧
      (StaleGone TableRow.updatedAt clock.now.toMillis ageSeconds table.rows kept.rows count ↔
        table.Reapable clock.now.toMillis ageSeconds) ∧
      (table.rows = memory.lines →
        (kept.rows = (memory.reapStale clock ageSeconds).1.lines ↔
          table.Reapable clock.now.toMillis ageSeconds))) ∧
    StaleGone (fun entry => entry.record.updatedAt.toMillis) clock.now.toMillis ageSeconds
      memory.entries (memory.reapStale clock ageSeconds).1.entries
      (memory.reapStale clock ageSeconds).2 := by
  have gone := Memory.reapStale_live wholeNow ageSeconds live whole
  have before : clock.now.toMillis < 2 ^ 63 := by
    have range := wholeNow.range
    omega
  have exactly := Table.before_cutoff_iff_reapable ageSeconds before wide
  refine ⟨⟨_, _, Table.reapStale_eq opened _ ageSeconds, ?_, ?_, ?_⟩, gone⟩
  · rw [Table.cutoff_eq]
    congr 1
    refine List.filter_congr fun row _member => ?_
    rw [Bool.eq_iff_iff, Bool.not_eq_true', decide_eq_false_iff_not, decide_eq_true_iff, not_lt]
  · exact (staleGone_iff _).trans exactly
  · intro same
    rw [gone.lines_kept, ← same]
    exact (kept_eq_iff _).trans exactly

/-- A process and a table with one row that is an hour and a second old and one that is just an
hour old: both lose the first row. -/
theorem stale_gone_iff_reapable_hour :
    let clock : Clock := ⟨0, .ofMillis 1700000000000⟩
    let row : Int → StatusRecord := fun millis =>
      ⟨"z", .update, ⟨"ns1.test", 53⟩, .pending, none, .ofMillis millis⟩
    let memory : Memory := ⟨1, [⟨row 1699996399000, 1⟩, ⟨row 1699996400000, 1⟩]⟩
    ∃ kept, ({ rows := memory.lines } : Table).reapStale clock.now.toMillis 3600 = .ok (kept, 1) ∧
      kept.rows = (memory.reapStale clock 3600).1.lines ∧
      (memory.reapStale clock 3600).1.entries.map Entry.record = [row 1699996400000] := by
  intro clock row memory
  have wholeNow : clock.now.IsWhole := by decide +kernel
  have wide : ∀ line ∈ memory.lines, -2 ^ 63 ≤ line.updatedAt := by decide +kernel
  have live : ∀ entry ∈ memory.entries, entry.isExpired clock.elapsed = false := by
    decide +kernel
  have whole : ∀ entry ∈ memory.entries, entry.record.updatedAt.IsWhole := by decide +kernel
  have reapable : ({ rows := memory.lines } : Table).Reapable clock.now.toMillis 3600 := by
    decide +kernel
  obtain ⟨⟨kept, count, reaped, -, gone, same⟩, goneHere⟩ :=
    @stale_gone_iff_reapable clock wholeNow 3600 { rows := memory.lines } rfl wide memory live whole
  have one : count = 1 := (gone.mpr reapable).counted.trans (by decide +kernel)
  rw [one] at reaped
  refine ⟨kept, reaped, (same rfl).mpr reapable, ?_⟩
  rw [goneHere.kept]
  decide +kernel

def longLived : Settings := { statusStore := .sql "sqlite::memory:" (2 ^ 63 - 1) }

/-- The settings pass validation.  Reaped by their lifetime, a table loses a row that was written
just now; the row is not stale, and the process keeps it. -/
theorem fresh_row_reaped :
    longLived.validate = .ok () ∧
      let now := 1700000000000
      let row : StatusRecord := ⟨"z", .update, ⟨"ns1.test", 53⟩, .success, some 10, .ofMillis now⟩
      let memory : Memory := ⟨60000, [⟨row, 60000⟩]⟩
      ¬IsStale now longLived.statusStore.ttl row.updatedAt.toMillis ∧
        (∃ kept, ({ rows := memory.lines } : Table).reapStale now longLived.statusStore.ttl =
          .ok (kept, 1) ∧ kept.rows = []) ∧
        memory.reapStale ⟨0, .ofMillis now⟩ longLived.statusStore.ttl = (memory, 0) := by
  refine ⟨rfl, by decide +kernel, ⟨_, rfl, by decide +kernel⟩, rfl⟩

end Status

end ZonePropagation
