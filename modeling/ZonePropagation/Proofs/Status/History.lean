import Mathlib
import ZonePropagation.Lock
import ZonePropagation.Proofs.Status.Memory
/-!
Histories of status rows.

A history is a list of events, of which some change the rows of a store: they write a row, or clear
a key.  A row stands at the end of a history when it was written and nothing since has written
another in its place or cleared its key.  What a store shows after any history is described by the
rows that stand.
-/

namespace ZonePropagation

def StatusRecord.key (row : StatusRecord) : ActionKey := ⟨row.zoneId, row.action⟩

theorem StatusRecord.isFor_iff (row : StatusRecord) (key : ActionKey) :
    row.isFor key.zoneId key.action = true ↔ row.key = key := by
  obtain ⟨zoneId, action⟩ := key
  simp [isFor, StatusRecord.key]

theorem StatusRecord.place_eq_iff (left right : StatusRecord) :
    left.place = right.place ↔ left.key = right.key ∧ left.nameserver = right.nameserver := by
  simp [place, StatusRecord.key, and_assoc]

namespace Status

inductive Change where
  | store (row : StatusRecord)
  | clear (key : ActionKey)
deriving DecidableEq, Repr

def Change.Replaces (row : StatusRecord) : Change → Prop
  | .store other => other.place = row.place
  | .clear key => row.key = key

instance (row : StatusRecord) : (change : Change) → Decidable (change.Replaces row)
  | .store other => inferInstanceAs (Decidable (other.place = row.place))
  | .clear key => inferInstanceAs (Decidable (row.key = key))

def Change.key : Change → ActionKey
  | .store row => row.key
  | .clear key => key

section History

variable {ε : Type} {change? : ε → Option Change} {history since : List ε} {event : ε}
  {row other : StatusRecord} {change : Change}

/-- The row was written, only the events `since` came after, and none of them replaced it. -/
def Stands (change? : ε → Option Change) (history : List ε) (row : StatusRecord)
    (since : List ε) : Prop :=
  ∃ before event, history = before ++ event :: since ∧ change? event = some (.store row) ∧
    ∀ later ∈ since, ∀ change ∈ change? later, ¬ change.Replaces row

theorem not_stands_nil : ¬ Stands change? [] row since := by
  rintro ⟨before, event, split, -⟩
  exact absurd split.symm (List.append_ne_nil_of_right_ne_nil _ (List.cons_ne_nil _ _))

/-- A row stands after one more event when the event wrote it, or did not replace it. -/
theorem stands_append_iff : Stands change? (history ++ [event]) row since ↔
    since = [] ∧ change? event = some (.store row) ∨
      ∃ earlier, since = earlier ++ [event] ∧ Stands change? history row earlier ∧
        ∀ change ∈ change? event, ¬ change.Replaces row := by
  constructor
  · rintro ⟨before, writing, split, wrote, kept⟩
    cases since using List.reverseRecOn with
    | nil =>
        obtain ⟨-, same⟩ := List.append_inj' split rfl
        cases same
        exact .inl ⟨rfl, wrote⟩
    | append_singleton earlier last =>
        rw [← List.cons_append, ← List.append_assoc] at split
        obtain ⟨whole, same⟩ := List.append_inj' split rfl
        cases same
        refine .inr ⟨earlier, rfl, ⟨before, writing, whole, wrote, ?_⟩, ?_⟩
        · exact fun later member => kept later (List.mem_append_left _ member)
        · exact kept event (by simp)
  · rintro (⟨rfl, wrote⟩ | ⟨earlier, rfl, ⟨before, writing, rfl, wrote, kept⟩, spared⟩)
    · exact ⟨history, event, rfl, wrote, by simp⟩
    · refine ⟨before, writing, by simp, wrote, ?_⟩
      intro later member
      rcases List.mem_append.mp member with inside | last
      · exact kept later inside
      · rw [List.mem_singleton.mp last]
        exact spared

theorem stands_map_iff {δ : Type} {told : δ → ε} {origin : List δ} :
    Stands change? (origin.map told) row since ↔
      ∃ earlier, earlier.map told = since ∧ Stands (change? ∘ told) origin row earlier := by
  constructor
  · rintro ⟨before, event, split, wrote, kept⟩
    obtain ⟨start, rest, rfl, -, spelled⟩ := List.map_eq_append_iff.mp split
    obtain ⟨first, later, rfl, rfl, rfl⟩ := List.map_eq_cons_iff.mp spelled
    refine ⟨later, rfl, start, first, rfl, wrote, fun change member => ?_⟩
    exact kept _ (List.mem_map_of_mem member)
  · rintro ⟨earlier, rfl, before, event, rfl, wrote, kept⟩
    refine ⟨before.map told, told event, by simp, wrote, fun later member => ?_⟩
    obtain ⟨origin, inside, rfl⟩ := List.mem_map.mp member
    exact kept origin inside

/-- The row stands at the end of the history, whatever has come after it was written. -/
def Standing (change? : ε → Option Change) (history : List ε) (row : StatusRecord) : Prop :=
  ∃ since, Stands change? history row since

theorem not_standing_nil : ¬ Standing change? [] row := fun ⟨_, stands⟩ => not_stands_nil stands

theorem standing_append_iff : Standing change? (history ++ [event]) row ↔
    change? event = some (.store row) ∨
      Standing change? history row ∧ ∀ change ∈ change? event, ¬ change.Replaces row := by
  constructor
  · rintro ⟨since, stands⟩
    rcases stands_append_iff.mp stands with ⟨-, wrote⟩ | ⟨earlier, -, before, spared⟩
    · exact .inl wrote
    · exact .inr ⟨⟨earlier, before⟩, spared⟩
  · rintro (wrote | ⟨⟨earlier, before⟩, spared⟩)
    · exact ⟨[], stands_append_iff.mpr (.inl ⟨rfl, wrote⟩)⟩
    · exact ⟨earlier ++ [event], stands_append_iff.mpr (.inr ⟨earlier, rfl, before, spared⟩)⟩

theorem Standing.written (stands : Standing change? history row) :
    ∃ event ∈ history, change? event = some (.store row) := by
  obtain ⟨since, before, event, rfl, wrote, -⟩ := stands
  exact ⟨event, by simp, wrote⟩

theorem Standing.unique (stands : Standing change? history row)
    (otherStands : Standing change? history other) (same : other.place = row.place) :
    other = row := by
  induction history using List.reverseRecOn with
  | nil => exact absurd stands not_standing_nil
  | append_singleton history event ih =>
      rcases standing_append_iff.mp stands with wrote | ⟨before, spared⟩
      · rcases standing_append_iff.mp otherStands with wroteOther | ⟨-, sparedOther⟩
        · rw [wrote, Option.some_inj, Change.store.injEq] at wroteOther
          exact wroteOther.symm
        · exact absurd same.symm (sparedOther _ wrote)
      · rcases standing_append_iff.mp otherStands with wroteOther | ⟨beforeOther, -⟩
        · exact absurd same (spared _ wroteOther)
        · exact ih before beforeOther

end History

end Status

end ZonePropagation
