import ZonePropagation.Proofs.Status.Memory
/-!
Rows without their times.

Two stores have the same rows but for the times when they agree once every time is erased.  What
the rows of a key show has no times in it, so that such stores show the same, and a row that is
written twice in a row leaves what it leaves when it is written once.
-/

namespace ZonePropagation.Status

open Memory

def Entry.untimed (entry : Entry) : Entry :=
  ⟨{ entry.record with updatedAt := ⟨0, 0⟩ }, 0⟩

def TableRow.untimed (row : TableRow) : TableRow :=
  { row with updatedAt := 0 }

namespace Store

def untimed : Store → Store
  | .memory rows => .memory { rows with entries := rows.entries.map Entry.untimed }
  | .table rows => .table { rows with rows := rows.rows.map TableRow.untimed }

/-- What the rows of a key show, or the failure to read them.  Rows that are kept in the process
count whether they have expired or not. -/
def shown? (key : ActionKey) : Store → Except Fault (List Shown)
  | .memory rows => .ok (rows.content key)
  | .table rows => (rows.retrieve key.zoneId key.action).map (List.map shown)

end Store

/-! ### What rows show -/

private theorem map_mapM {ε α β γ : Type} (read : α → Except ε β) (view : β → γ)
    (lines : List α) :
    (lines.mapM read).map (List.map view) = lines.mapM fun line => (read line).map view := by
  induction lines with
  | nil => rfl
  | cons line lines ih =>
      rw [List.mapM_cons, List.mapM_cons, ← ih]
      cases read line with
      | error fault => rfl
      | ok record =>
          cases lines.mapM read with
          | error fault => rfl
          | ok records => rfl

theorem TableRow.shown_untimed (row : TableRow) :
    row.untimed.toRecord.map shown = row.toRecord.map shown := by
  unfold toRecord untimed
  cases wordOf (ZoneAction.ofText row.action) with
  | error fault => exact Eq.refl (Except.error fault)
  | ok action =>
      cases Nameserver.ofText? row.nameserver with
      | none => rfl
      | some server =>
          cases wordOf (Status.ofText row.status) with
          | error fault => rfl
          | ok status => rfl

theorem Table.rowsFor_untimed (rows : Table) (zoneId : String) (action : ZoneAction) :
    Table.rowsFor { rows with rows := rows.rows.map TableRow.untimed } zoneId action =
      (rows.rowsFor zoneId action).map TableRow.untimed := by
  unfold rowsFor
  rw [List.filter_map]
  symm
  apply List.map_mergeSort
  intro left _member right _other
  rfl

theorem Table.shown_retrieve (rows : Table) (key : ActionKey) :
    (Store.table rows).shown? key = rows.guard >>= fun _ =>
      (rows.rowsFor key.zoneId key.action).mapM fun row => row.toRecord.map shown := by
  rw [← map_mapM]
  change (rows.guard >>= fun _ => _).map _ = _
  cases rows.guard with
  | error fault => rfl
  | ok _ => rfl

theorem Table.shown_untimed (rows : Table) (key : ActionKey) :
    (Store.table { rows with rows := rows.rows.map TableRow.untimed }).shown? key =
      (Store.table rows).shown? key := by
  have same : (fun row => row.toRecord.map shown) ∘ TableRow.untimed =
      fun row => row.toRecord.map shown := funext TableRow.shown_untimed
  have closing : guard { rows with rows := rows.rows.map TableRow.untimed } = rows.guard := rfl
  rw [shown_retrieve, shown_retrieve, rowsFor_untimed, List.mapM_map, same, closing]

theorem Store.shown_untimed (store : Store) (key : ActionKey) :
    store.untimed.shown? key = store.shown? key := by
  cases store with
  | memory rows =>
      change Except.ok (Memory.content _ key) = Except.ok (rows.content key)
      unfold Memory.content
      rw [List.filter_map, List.map_map]
      rfl
  | table rows => exact rows.shown_untimed key

theorem Store.shown_eq_of_untimed {left right : Store} {key : ActionKey}
    (same : left.untimed = right.untimed) : left.shown? key = right.shown? key := by
  rw [← left.shown_untimed, ← right.shown_untimed, same]

/-! ### What is written and cleared -/

private theorem filter_twice {α : Type} (keeps : α → Bool) (items : List α) {item : α}
    (replaced : keeps item = false) :
    (items.filter keeps ++ [item]).filter keeps = items.filter keeps := by
  rw [List.filter_append, List.filter_filter, List.filter_singleton, replaced, cond_false,
    List.append_nil]
  simp only [Bool.and_self]

theorem Memory.untimed_store_twice (rows : Memory) (clock later : Clock) (key : ActionKey)
    (server : Nameserver) (status : Status) (serial : Option UInt32) :
    ((rows.store clock key.zoneId key.action server status serial).store later
        key.zoneId key.action server status serial).entries.map Entry.untimed =
      (rows.store clock key.zoneId key.action server status serial).entries.map
        Entry.untimed := by
  let written : Entry :=
    ⟨⟨key.zoneId, key.action, server, status, serial, clock.now⟩, clock.elapsed + rows.ttl⟩
  have replaced : (!written.record.sameKey written.record) = false := by
    simp [StatusRecord.sameKey, StatusRecord.isFor]
  have twice := filter_twice (fun entry => !entry.record.sameKey written.record) rows.entries
    replaced
  unfold Memory.store
  rw [List.map_append, List.map_append]
  exact congrArg (fun others => others.map Entry.untimed ++ _) twice

theorem Table.untimed_upsert_twice (rows : List TableRow) {row again : TableRow}
    (same : again.untimed = row.untimed) :
    (upsert (upsert rows row) again).map TableRow.untimed =
      (upsert rows row).map TableRow.untimed := by
  have place : (fun other : TableRow => !other.sameKey again) =
      fun other => !other.sameKey row := by
    funext other
    change (!other.sameKey again.untimed) = _
    rw [same]
    rfl
  have replaced : (!row.sameKey row) = false := by
    simp [TableRow.sameKey]
  unfold upsert
  rw [place, filter_twice (fun other => !other.sameKey row) rows replaced, List.map_append,
    List.map_append, List.map_singleton, same]
  rfl

theorem Table.shown_of_closed (lines : List TableRow) (key : ActionKey) :
    ∃ fault, (Store.table ⟨lines, true⟩).shown? key = .error fault := ⟨_, rfl⟩

section Operations

variable {store : Store} {clock later : Clock} {key : ActionKey} {server : Nameserver}
  {status : Status} {serial : Option UInt32} {told : List Shown}

theorem Store.untimed_store_twice :
    ((store.store clock key server status serial).2.store later key server status
        serial).2.untimed =
      (store.store clock key server status serial).2.untimed := by
  cases store with
  | memory rows =>
      exact congrArg (fun entries => Store.memory { rows with entries })
        (rows.untimed_store_twice clock later key server status serial)
  | table rows =>
      obtain ⟨lines, closed⟩ := rows
      cases closed with
      | true => rfl
      | false =>
          exact congrArg (fun rows => Store.table { rows })
            (Table.untimed_upsert_twice lines rfl)

theorem Store.untimed_store_at :
    (store.store later key server status serial).2.untimed =
      (store.store clock key server status serial).2.untimed := by
  cases store with
  | memory rows =>
      apply congrArg (fun entries => Store.memory { rows with entries })
      unfold Memory.store
      rw [List.map_append, List.map_append]
      rfl
  | table rows =>
      obtain ⟨lines, closed⟩ := rows
      cases closed with
      | true => rfl
      | false =>
          apply congrArg (fun rows => Store.table { rows })
          unfold Table.upsert
          rw [List.map_append, List.map_append]
          rfl

theorem Store.store_of_shown (readable : store.shown? key = .ok told) :
    (store.store clock key server status serial).1 = .ok () := by
  cases store with
  | memory rows => rfl
  | table rows =>
      obtain ⟨lines, closed⟩ := rows
      cases closed with
      | false => rfl
      | true =>
          obtain ⟨fault, failed⟩ := Table.shown_of_closed lines key
          rw [failed] at readable
          cases readable

/-- Rows that can be read can be cleared, and then there are none. -/
theorem Store.clear_of_shown (readable : store.shown? key = .ok told) :
    (store.clear key).1 = .ok () ∧ (store.clear key).2.shown? key = .ok [] := by
  cases store with
  | memory rows => exact ⟨rfl, congrArg Except.ok (Shows.refl rows key).clear.content⟩
  | table rows =>
      obtain ⟨lines, closed⟩ := rows
      cases closed with
      | false =>
          refine ⟨rfl, ?_⟩
          have none : Table.rowsFor
              ⟨lines.filter fun row => !row.isFor key.zoneId key.action, false⟩ key.zoneId
                key.action = [] := by
            simp [Table.rowsFor, List.filter_filter]
          change (Store.table ⟨_, false⟩).shown? key = _
          rw [Table.shown_retrieve, none]
          rfl
      | true =>
          obtain ⟨fault, failed⟩ := Table.shown_of_closed lines key
          rw [failed] at readable
          cases readable

/-- As long as no row of the key has expired, what is read shows all of them. -/
theorem Store.shown_of_live (live : ∀ rows, store = .memory rows → ∀ entry ∈ rows.entries,
    entry.record.isFor key.zoneId key.action = true → entry.isExpired clock.elapsed = false) :
    (store.retrieve clock key).map (List.map shown) = store.shown? key := by
  cases store with
  | memory rows => exact congrArg Except.ok ((Shows.refl rows key).retrieve (live rows rfl))
  | table rows => rfl

end Operations

end ZonePropagation.Status
